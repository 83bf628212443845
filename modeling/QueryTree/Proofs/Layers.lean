import Mathlib.Data.List.Induction
import QueryTree.Proofs.NameOrder
import QueryTree.Proofs.Table

/-!
# Tables in layers

A table is built from the bottom up: first some entries, and then any number of *layers*
(`Table.Layer`).  A layer is a list of entries, or what a table of conditions has besides
the table it is derived from, with a comparison for each operator.

All that matters is the entries of all layers in a row (`Table.foldl_onto`).  This is
because several layers are as good as one.  Entries that are put into a table of their own
first have the same effect as one by one (`Table.layered_ofList`): an entry that replaces
another keeps its place, wherever the other was entered.

The main statement is `Table.layers_determine`.  A tag has the handler of the last layer
that mentions it.  The tags are listed in the order in which they are first mentioned, each
once.  The number of tags, the tags in order and the test whether a tag is there agree with
that.
-/

namespace QueryTree

namespace Table

/-! ## Entries on top of entries -/

section

variable {entries rest : List (Label × Handler)} {a b new : Label × Handler}

theorem enter_enter_same (h : a.1.tag = b.1.tag) :
    enter (enter entries a) b = enter entries (a.1, b.2) := by
  induction entries with
  | nil => simp [enter, h]
  | cons entry rest ih =>
      by_cases hentry : entry.1.tag = a.1.tag
      · simp [enter, hentry, h]
      · have hentry' : ¬ entry.1.tag = b.1.tag := h ▸ hentry
        simp [enter, hentry, hentry', ih]

/-- An entry for a tag that is there may be put before another one. -/
theorem enter_comm (hthere : b.1.tag ∈ entries.map (·.1.tag)) (hne : a.1.tag ≠ b.1.tag) :
    enter (enter entries a) b = enter (enter entries b) a := by
  induction entries with
  | nil => cases hthere
  | cons entry rest ih =>
      by_cases ha : entry.1.tag = a.1.tag
      · have hb : ¬ entry.1.tag = b.1.tag := fun hb => hne (ha.symm.trans hb)
        simp [enter, ha, hne]
      · by_cases hb : entry.1.tag = b.1.tag
        · simp [enter, hb, Ne.symm hne]
        · have hrest : b.1.tag ∈ rest.map (·.1.tag) := by
            rcases List.mem_cons.mp hthere with heq | hrest
            · exact absurd heq.symm hb
            · exact hrest
          simp [enter, ha, hb, ih hrest]

theorem mem_tags_enter (tag : String) :
    tag ∈ (enter entries new).map (·.1.tag) ↔ tag ∈ entries.map (·.1.tag) ∨ tag = new.1.tag := by
  rw [map_tag_enter]
  split
  · next hthere =>
      constructor
      · exact Or.inl
      · rintro (h | rfl)
        · exact h
        · exact hthere
  · rw [List.mem_append, List.mem_singleton]

/-- An entry for a tag that is there may be put before others for other tags. -/
theorem foldl_enter_comm (hthere : new.1.tag ∈ entries.map (·.1.tag))
    (hrest : new.1.tag ∉ rest.map (·.1.tag)) :
    enter (rest.foldl enter entries) new = rest.foldl enter (enter entries new) := by
  induction rest generalizing entries with
  | nil => rfl
  | cons entry rest ih =>
      rw [List.map_cons, List.mem_cons, not_or] at hrest
      rw [List.foldl_cons, List.foldl_cons, ih ((mem_tags_enter _).mpr (Or.inl hthere)) hrest.2,
        enter_comm hthere (Ne.symm hrest.1)]

/-- An entry on top of a layer may be put into the layer. -/
theorem foldl_enter_enter (hrest : (rest.map (·.1.tag)).Nodup) :
    (enter rest new).foldl enter entries = enter (rest.foldl enter entries) new := by
  induction rest generalizing entries with
  | nil => rfl
  | cons entry rest ih =>
      obtain ⟨hentry, hrest⟩ := List.nodup_cons.mp hrest
      by_cases heq : entry.1.tag = new.1.tag
      · have hthere : new.1.tag ∈ (enter entries entry).map (·.1.tag) :=
          (mem_tags_enter _).mpr (Or.inr heq.symm)
        rw [enter, if_pos heq, List.foldl_cons, List.foldl_cons,
          foldl_enter_comm hthere (heq ▸ hentry), enter_enter_same heq]
      · rw [enter, if_neg heq, List.foldl_cons, List.foldl_cons, ih hrest]

end

/-! ## Several layers as one -/

theorem layered_append (t : Table) (earlier later : List (Label × Handler)) :
    t.layered (earlier ++ later) = (t.layered earlier).layered later := by
  rw [layered, List.foldl_append]
  rfl

/-- Entries that are a table of their own have the effect they have one by one. -/
theorem layered_ofList (t : Table) (layer : List (Label × Handler)) :
    t.layered (ofList layer).entries = t.layered layer := by
  induction layer using List.reverseRecOn with
  | nil => rfl
  | append_singleton layer new ih =>
      have hlayer : (ofList (layer ++ [new])).entries = enter (ofList layer).entries new := by
        rw [ofList, layered_append]
        rfl
      rw [hlayer, layered, foldl_enter_enter (distinct_ofList layer), layered_append, ← ih]
      rfl

/-- A further tag is listed at the end, unless it was mentioned before. -/
theorem eraseDups_concat (tags : List String) (tag : String) :
    (tags ++ [tag]).eraseDups =
      if tag ∈ tags then tags.eraseDups else tags.eraseDups ++ [tag] := by
  rw [List.eraseDups_append]
  by_cases htag : tag ∈ tags
  · simp [List.removeAll, htag]
  · simp [List.removeAll, htag, List.eraseDups_cons]

/-- A table of entries lists their tags in the order in which they are first mentioned. -/
theorem toList_ofList (entries : List (Label × Handler)) :
    (ofList entries).toList = (entries.map (·.1.tag)).eraseDups := by
  induction entries using List.reverseRecOn with
  | nil => rfl
  | append_singleton entries new ih =>
      have hlast : (ofList (entries ++ [new])).toList =
          if new.1.tag ∈ (ofList entries).toList then (ofList entries).toList
          else (ofList entries).toList ++ [new.1.tag] := by
        rw [ofList, layered_append]
        exact map_tag_enter _ new
      rw [hlast, ih, List.map_append, List.map_singleton, eraseDups_concat]
      simp only [List.mem_eraseDups]

/-! ## Layers -/

/-- What is put on top of a table. -/
inductive Layer where
  /-- Entries for some tags. -/
  | entries (layer : List (Label × Handler))
  /-- The entries of conditions, with a comparison for each operator over them. -/
  | conditions (operators : List String)

namespace Layer

/-- A table with a layer on top. -/
def onto (t : Table) : Layer → Table
  | entries layer => t.layered layer
  | conditions operators => t.withConditions operators

/-- All entries of a layer, the later over the earlier. -/
def listed : Layer → List (Label × Handler)
  | entries layer => layer
  | conditions operators => conditionLayer ++ operators.map fun op => (.word op, .comparison)

/-- The tags that a layer mentions, in order. -/
def mentioned (layer : Layer) : List String := layer.listed.map (·.1.tag)

/-- The handler that a layer gives a tag. -/
def handler? (tag : String) : Layer → Option Handler
  | entries layer => lastIn tag layer
  | conditions operators => if tag ∈ operators then some .comparison else fixed? tag

theorem onto_eq (t : Table) (layer : Layer) : layer.onto t = t.layered layer.listed := by
  cases layer with
  | entries layer => rfl
  | conditions operators => exact layered_ofList t _

theorem lastIn_listed (tag : String) (layer : Layer) :
    lastIn tag layer.listed = layer.handler? tag := by
  cases layer with
  | entries layer => rfl
  | conditions operators =>
      rw [listed, lastIn_append, lastIn_comparisons, handler?, fixed?]
      split <;> rfl

end Layer

/-- A table in layers is one layer of all their entries in a row. -/
theorem foldl_onto (t : Table) (layers : List Layer) :
    layers.foldl (fun below layer => layer.onto below) t = t.layered (layers.flatMap Layer.listed) := by
  induction layers generalizing t with
  | nil => rfl
  | cons layer rest ih => rw [List.foldl_cons, ih, Layer.onto_eq, ← layered_append, List.flatMap_cons]

/-- The last handler for a tag in all layers is that of the last layer which has one. -/
theorem lastIn_flatMap (tag : String) (layers : List Layer) :
    lastIn tag (layers.flatMap Layer.listed) = layers.reverse.findSome? (Layer.handler? tag) := by
  induction layers with
  | nil => rfl
  | cons layer rest ih =>
      rw [List.flatMap_cons, lastIn_append, ih, Layer.lastIn_listed, List.reverse_cons,
        List.findSome?_append, List.findSome?_singleton]

/-- A tag has a handler exactly if it is listed. -/
theorem lookup_isSome_iff (t : Table) (tag : String) : (t.lookup tag).isSome ↔ tag ∈ t.toList := by
  rw [lookup, Option.isSome_map, List.find?_isSome, toList, List.mem_map]
  simp

/-! ## Tags in order -/

theorem map_tag_insertLabel (l : Label) (ls : List Label) :
    (insertLabel l ls).map (·.tag) = Registry.insertName l.tag (ls.map (·.tag)) := by
  induction ls with
  | nil => rfl
  | cons m rest ih =>
      rw [insertLabel, List.map_cons, Registry.insertName]
      split
      · rfl
      · rw [List.map_cons, ih]

theorem tags_eq (t : Table) :
    t.tags = t.toList.foldl (fun done tag => Registry.insertName tag done) [] := by
  have hfold : ∀ (ls done : List Label),
      (ls.foldl (fun done l => insertLabel l done) done).map (·.tag) =
        (ls.map (·.tag)).foldl (fun done tag => Registry.insertName tag done) (done.map (·.tag)) := by
    intro ls
    induction ls with
    | nil => exact fun _ => rfl
    | cons l ls ih =>
        intro done
        rw [List.foldl_cons, ih, map_tag_insertLabel, List.map_cons, List.foldl_cons]
  have htags := hfold (t.entries.map (·.1)) []
  rw [List.map_map] at htags
  exact htags

/-- The tags in order are those of the table, and each is less than those after it. -/
theorem tags_ordered {t : Table} (h : t.Distinct) : t.tags.Perm t.toList ∧ t.tags.Pairwise (· < ·) := by
  rw [tags_eq]
  exact Registry.ordered_foldl_insertName h

/-! ## Tables in layers -/

/-- A table of entries with any number of layers on top.  A tag has the handler of the last
layer that gives it one, and none exactly if no layer mentions it.  The tags are listed in
the order in which they are first mentioned, each once.  Two layers are as good as one in
which the entries of the second are put over those of the first. -/
theorem layers_determine (initial : List (Label × Handler)) (layers : List Layer) :
    let t := layers.foldl (fun below layer => layer.onto below) (ofList initial)
    let all := Layer.entries initial :: layers
    (∀ tag, t.lookup tag = all.reverse.findSome? (Layer.handler? tag)) ∧
      (∀ tag, t.lookup tag = none ↔ ∀ layer ∈ all, tag ∉ layer.mentioned) ∧
      t.toList = (all.flatMap Layer.mentioned).eraseDups ∧ t.toList.Nodup ∧
      t.size = (all.flatMap Layer.mentioned).eraseDups.length ∧
      t.tags.Perm t.toList ∧ t.tags.Pairwise (· < ·) ∧
      (∀ tag, t.contains tag = (t.lookup tag).isSome ∧ (t.contains tag ↔ tag ∈ t.toList)) ∧
      ∀ a b, (t.layered a).layered b = t.layered ((ofList a).layered b).entries := by
  intro t all
  have ht : t = ofList (all.flatMap Layer.listed) := by
    have hfold : t = (ofList initial).layered (layers.flatMap Layer.listed) := foldl_onto _ _
    rw [hfold, ofList, ofList, ← layered_append]
    rfl
  have hmentioned : (all.flatMap Layer.listed).map (·.1.tag) = all.flatMap Layer.mentioned :=
    List.map_flatMap
  have hlist : t.toList = (all.flatMap Layer.mentioned).eraseDups := by
    rw [ht, toList_ofList, hmentioned]
  have hdistinct : t.Distinct := ht ▸ distinct_ofList _
  have hthere : ∀ tag, (t.lookup tag).isSome ↔ tag ∈ all.flatMap Layer.mentioned := by
    intro tag
    rw [lookup_isSome_iff, hlist, List.mem_eraseDups]
  refine ⟨fun tag => ?_, fun tag => ?_, hlist, hdistinct, ?_, (tags_ordered hdistinct).1,
    (tags_ordered hdistinct).2, fun tag => ⟨rfl, lookup_isSome_iff t tag⟩, fun a b => ?_⟩
  · rw [ht, lookup_ofList, lastIn_flatMap]
  · rw [← Option.not_isSome_iff_eq_none, hthere, List.mem_flatMap]
    simp only [not_exists, not_and]
  · rw [← hlist, size, toList, List.length_map]
  · have honto : (ofList a).layered b = ofList (a ++ b) := by rw [ofList, ofList, layered_append]
    rw [honto, layered_ofList, layered_append]

/-- An operator takes the place of a handler of its own, and keeps the place of the tag. -/
example :
    let t := (Layer.conditions ["-name", "="]).onto (ofList [(.word "=", .list), (.word "-in", .name)])
    t.lookup "-name" = some .comparison ∧ t.lookup "-in" = some .membership ∧
      t.toList = ["=", "-in", "-not_in", "-value", "-name", "-true", "-false"] := by decide

end Table

end QueryTree
