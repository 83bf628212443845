import QueryTree.Proofs.Json.RoundTrip
import QueryTree.Proofs.KeyOrder.Reordering
import QueryTree.Proofs.Outline.Runs

/-!
# Trees of native values

A renderer takes a value apart and never looks into a literal.  If the value is native,
everything it comes to is.

* The items of a native list are native, and so are the values of a native map, the joins
  of a select and the atoms of conditions.
* A native value stands for a node with native operands (`Node.native_ofValue`), and the
  node passes this on to what a handler renders (`Node.passes_native`).
* So what a rendering records is native (`Renderer.records_perform`), by induction over
  the nodes below.

The main statement is `Renderer.native_binds`: the literals bound in a native value are
native.
-/

namespace QueryTree

open Rendering (Gives Regular bindLiteral fail)
open Renderer (Place)

/-! ## Parts of native values -/

namespace Json.Native

variable {v w : Value}

theorem item {items : List Value} (h : Native w) (hw : w.sequence? = some items) (hv : v ∈ items) :
    Native v := by
  cases h with
  | list hitems =>
      obtain rfl := Option.some.inj hw
      exact hitems v hv
  | _ => cases hw

theorem operand (h : Native w) (hv : v ∈ w.operands) : Native v := by
  cases h with
  | list hitems => exact hitems v (List.mem_of_mem_tail hv)
  | _ => cases hv

theorem get? {entries : Fields} (h : Native (.map entries)) {key : String}
    (hv : entries.get? key = some v) : Native v := by
  have hmem := Fields.mem_of_get? hv
  cases h with
  | map _ hpairs =>
      obtain ⟨p, hp, heq⟩ := List.mem_map.mp hmem
      obtain ⟨-, rfl⟩ := Prod.mk.inj heq
      exact hpairs p hp

theorem asJoin (h : Native v) (hw : Clause.asJoin v = .ok w) : Native w := by
  cases h with
  | map hnodup hpairs =>
      obtain rfl := Except.ok.inj hw
      exact (NativeEntries.set ⟨_, rfl, hnodup, hpairs⟩ "type" (.str "join")).native
  | _ => cases hw

/-- The items of a group of conditions are native if the group is. -/
theorem headed {c : Connective} {items : List Value} (h : Native v) (hv : Condition.Headed v c items) :
    ∀ u ∈ items, Native u := by
  cases hv with
  | list => exact fun u hu => h.item rfl (List.mem_cons_of_mem _ hu)
  | tuple => cases h
  | node => cases h

theorem ofItems (c : Connective) (items : List Value) (h : ∀ u ∈ items, Native u) {a : Value}
    (ha : a ∈ (Condition.ofItems c items).atoms) : Native a := by
  obtain ⟨v, hv, hcases⟩ := Condition.mem_atoms_ofItems ha
  have hnative : Native v := by
    rcases hv with hv | rfl
    · exact h v hv
    · exact .list h
  rcases hcases with rfl | ⟨d, rest, hd, hlt, ha⟩
  · exact hnative
  · exact ofItems d rest (hnative.headed hd) ha
termination_by sizeOf items

/-- The atoms of a tree of conditions are native if what it is read from is. -/
theorem atom (h : Native v) {t : Condition} (ht : Condition.ofValue v = .ok t) {a : Value}
    (ha : a ∈ t.atoms) : Native a := by
  rcases Condition.ofValue_cases v with ⟨c, items, hv, heq⟩ | ⟨items, hv, -, heq⟩ |
    ⟨_, _, _, rfl, -, heq⟩ | heq
  · obtain rfl := Except.ok.inj (heq.symm.trans ht)
    exact ofItems c items (h.headed hv) ha
  · obtain rfl := Except.ok.inj (heq.symm.trans ht)
    exact ofItems .and items (fun u hu => h.item hv hu) ha
  · obtain rfl := Except.ok.inj (heq.symm.trans ht)
    obtain rfl := List.mem_singleton.mp ha
    exact h
  · rw [ht] at heq
    cases heq

end Json.Native

/-! ## Native nodes -/

/-- A node whose operands are native. -/
structure Node.Native (n : Node) : Prop where
  arg : ∀ {v}, v ∈ n.args → Json.Native v
  get? : ∀ {key v}, n.fields.get? key = some v → Json.Native v

namespace Node

variable {n : Node} {v : Value}

theorem native_nameOperands {operands : List Value} (h : ∀ v ∈ operands, Json.Native v) :
    ∀ v ∈ nameOperands operands, Json.Native v := by
  unfold nameOperands
  split
  · next w =>
      have hw := h w List.mem_cons_self
      cases hitems : w.sequence? with
      | none => exact h
      | some items => exact fun v hv => hw.item hitems hv
  · exact h

theorem native_ofArray (tag : String) {operands : List Value} (h : ∀ v ∈ operands, Json.Native v) :
    (ofArray tag operands).Native := by
  have hhead : ∀ vs : List Value, (∀ v ∈ vs, Json.Native v) → Json.Native (vs.headD .null) := by
    intro vs hvs
    cases vs with
    | nil => exact .null
    | cons v vs => exact hvs v List.mem_cons_self
  unfold ofArray
  split
  · refine ⟨native_nameOperands h _, fun hv => ?_⟩
    cases hv
  · split
    · refine ⟨fun hv => ?_, fun {key v} hv => ?_⟩
      · cases hv
      · rcases List.mem_cons.mp (Fields.mem_of_get? hv) with heq | hmem
        · obtain ⟨-, rfl⟩ := Prod.mk.inj heq
          exact hhead operands h
        · obtain ⟨-, rfl⟩ := Prod.mk.inj (List.mem_singleton.mp hmem)
          exact hhead operands.tail fun v hv => h v (List.mem_of_mem_tail hv)
    · refine ⟨h _, fun hv => ?_⟩
      cases hv

/-- A native value stands for a native node. -/
theorem native_ofValue (h : Json.Native v) {default? : Option String}
    (hn : ofValue v default? = .ok n) : n.Native := by
  cases h with
  | @list items hitems =>
      obtain ⟨tag, operands, rfl, rfl⟩ := array_of_ofValue rfl hn
      exact native_ofArray tag fun v hv => hitems v (List.mem_cons_of_mem _ hv)
  | map hnodup hpairs =>
      obtain ⟨hargs, hfields⟩ := ofMap_operands hn
      refine ⟨fun hv => ?_, fun {key w} hw => ?_⟩
      · rw [hargs] at hv
        cases hv
      · rw [hfields, Fields.get?_without] at hw
        split at hw
        · cases hw
        · exact (Json.Native.map hnodup hpairs).get? hw
  | _ => cases hn

/-- If a value stands for a node, for a native one. -/
def StandsNative (v : Value) : Prop := ∀ m, ofValue v = .ok m → m.Native

theorem passes_native (h : n.Native) : n.Passes Json.Native StandsNative where
  null := .null
  arg := h.arg
  get? := h.get?
  item := Json.Native.item
  operand := Json.Native.operand
  join := Json.Native.asJoin
  rendered := fun hv _ => native_ofValue hv
  atom := fun hv ht ha _ => native_ofValue (hv.atom ht ha)
  ownAtom := fun ht ha _ => native_ofValue ((Json.Native.list fun _ => h.arg).atom ht ha)

end Node

/-! ## Recorded literals -/

namespace Rendering

variable {α β : Type} {P : Value → Prop}

/-- Whatever a rendering records is of a certain sort. -/
def Records (P : Value → Prop) (x : Rendering α) : Prop :=
  ∃ answer recorded, Gives x answer recorded ∧ ∀ v ∈ recorded, P v

theorem records_pure (a : α) : Records P (pure a : Rendering α) :=
  ⟨_, _, gives_pure a, fun _ h => by cases h⟩

theorem records_fail (e : RenderError) : Records P (fail e : Rendering α) :=
  ⟨_, _, gives_fail e, fun _ h => by cases h⟩

theorem records_bindLiteral {v : Value} (hv : P v) : Records P (bindLiteral v) :=
  ⟨_, _, gives_bindLiteral v, fun _ h => List.mem_singleton.mp h ▸ hv⟩

theorem Records.bind {x : Rendering α} {f : α → Rendering β} (hx : Records P x)
    (hf : ∀ a, Records P (f a)) : Records P (x >>= f) := by
  obtain ⟨answer, recorded, hgives, hrecorded⟩ := hx
  cases answer with
  | error e => exact ⟨_, _, gives_bind_error hgives, hrecorded⟩
  | ok a =>
      obtain ⟨answer', recorded', hgives', hrecorded'⟩ := hf a
      refine ⟨_, _, gives_bind_ok hgives hgives', fun v hv => ?_⟩
      exact (List.mem_append.mp hv).elim (hrecorded v) (hrecorded' v)

theorem closed_records : Closed (Records P) := ⟨records_pure, fun hx hf => hx.bind hf⟩

end Rendering

namespace Renderer

open Rendering (Records)

variable (r : Renderer)

/-- What a node passes on reaches every piece that is no error. -/
theorem from_mem_pieces {place : Place} {n : Node} {P Q : Value → Prop} (h : n.Passes P Q)
    {p : Piece} (hp : p ∈ (r.outline place n).pieces) :
    p.From r.settings n Q ∨ ∃ e, p = .stop e := by
  unfold outline at hp
  split at hp
  · exact .inr ⟨_, List.mem_singleton.mp hp⟩
  · exact (Handler.from_mem_outline h hp).imp_right fun hstop => ⟨_, hstop.2.1⟩

/-- A piece of a native node records native literals, if the nodes below do. -/
theorem records_of_from {n : Node} (hn : n.Native) {p : Piece}
    (hp : p.From r.settings n Node.StandsNative)
    (hbelow : ∀ q v m, p = .below q v → Node.ofValue v = .ok m → m.Native →
      Records Json.Native (r.full q m)) : Records Json.Native (p.render r.operands) := by
  cases hp with
  | text t => exact Rendering.records_pure _
  | literal hargs => exact Rendering.records_bindLiteral (hn.arg (hargs ▸ List.mem_cons_self))
  | @below q v hstands =>
      rw [Piece.render_below, operands_at]
      exact @Rendering.of_nodeOf_bind (@fun _ x => Records Json.Native x) r
        (fun _ _ => Rendering.records_fail _) v _ fun m hm => hbelow q v m rfl hm (hstands m hm)
  | stop _ => exact Rendering.records_fail _

/-- What is recorded for a native node is native. -/
theorem records_full (place : Place) (n : Node) (hn : n.Native) :
    Records Json.Native (r.full place n) := by
  induction place, n using r.node_induction with
  | step place n ih =>
      rw [full_eq]
      apply Rendering.closed_records.outline
      intro p hp
      rcases r.from_mem_pieces (Node.passes_native hn) hp with hfrom | ⟨e, rfl⟩
      · exact r.records_of_from hn hfrom fun q v m heq hm => ih q v m (heq ▸ hp) hm
      · exact Rendering.records_fail e

variable {v : Value} (hv : Json.Native v)

include hv

theorem from_statementPiece (k : Keyword) (n : Node) :
    (statementPiece k v).From r.settings n Node.StandsNative := by
  unfold statementPiece
  split
  · exact .stop trivial
  · next m hm =>
      split
      · refine .below fun m' hm' => ?_
        rw [Node.ofValue_toValue] at hm'
        exact Except.ok.inj hm' ▸ Node.native_ofValue hv hm
      · exact .stop trivial

/-- The pieces of what is asked for of a native value stand for native nodes. -/
theorem from_pieces (request : Request) (n : Node) :
    ∀ p ∈ r.pieces v request, p.From r.settings n Node.StandsNative := by
  have hstatement : ∀ k, ∀ p ∈ [statementPiece k v], p.From r.settings n Node.StandsNative :=
    fun k => List.forall_mem_singleton.mpr (r.from_statementPiece hv k n)
  have hbelow : ∀ place : Place, ∀ p ∈ [Piece.below place v], p.From r.settings n Node.StandsNative :=
    fun place => List.forall_mem_singleton.mpr (.below fun _ => Node.native_ofValue hv)
  cases request with
  | tree => exact hbelow .tree
  | select => exact hstatement .select
  | insert => exact hstatement .insert
  | update => exact hstatement .update
  | delete => exact hstatement .delete
  | expression => exact hbelow .condition
  | conditions =>
      rw [pieces, List.forall_mem_cons]
      exact ⟨.text _, Piece.from_conditions fun t a ht ha _ => Node.native_ofValue (hv.atom ht ha)⟩

/-- Whatever is asked for of a native value, the recorded literals are native. -/
theorem records_perform (request : Request) : Records Json.Native (r.perform v request) := by
  -- nothing that is asked for is a literal of its own, so any node serves
  have hn : Node.Native ⟨"", [], []⟩ := ⟨fun h => (by cases h), fun h => (by cases h)⟩
  rw [perform_eq]
  apply Rendering.closed_records.renderAll
  intro p hp
  exact r.records_of_from hn (r.from_pieces hv request _ p hp) fun q _ m _ _ => r.records_full q m

/-- The literals bound in a native value are native. -/
theorem native_binds {request : Request} {result : Result} (h : r.render request v = .ok result) :
    ∀ b ∈ result.binds, Json.Native b := by
  obtain ⟨answer, recorded, hgives, hrecorded⟩ := r.records_perform hv request
  have houtcome := hgives []
  rw [List.nil_append] at houtcome
  rw [render, Renderer.result, houtcome] at h
  cases answer with
  | error e => cases h
  | ok sql =>
      obtain rfl := Except.ok.inj h
      exact hrecorded

end Renderer

end QueryTree
