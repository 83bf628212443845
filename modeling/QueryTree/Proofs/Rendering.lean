import QueryTree.Rendering

/-!
# What a rendering gives

A rendering starts with the literals recorded before it.  It never looks at them
and only adds to their end.  So one *answer* and one list of *recorded* literals
describe it, whatever was recorded before: `Gives x answer recorded`.

`Gives` is deterministic (`Gives.unique`), and it follows the structure of a
rendering (`gives_bind_ok`, `gives_bind_error` and back, `Gives.bind_ok_inv`).  A
rendering that gives something is *regular*.

A property is *closed* if it holds of results and is kept by doing one rendering
after another (`Closed`).  To be regular is closed.
-/

namespace QueryTree.Rendering

variable {α β : Type}

/-! ## Failure -/

/-- Nothing happens after an error. -/
@[simp] theorem fail_bind (e : RenderError) (f : α → Rendering β) : fail e >>= f = fail e := rfl

@[simp] theorem fault_bind (e : Fault) (f : α → Rendering β) : fault e >>= f = fault e := rfl

@[simp] theorem fail_map (e : RenderError) (f : α → β) : f <$> (fail e : Rendering α) = fail e := rfl

@[simp] theorem ofExcept_ok (a : α) : ofExcept (.ok a) = pure a := rfl

@[simp] theorem ofExcept_error (f : Fault) : (ofExcept (.error f) : Rendering α) = fault f := rfl

/-! ## Items one by one -/

@[simp] theorem each_nil (f : α → Rendering β) : each f [] = pure [] := rfl

theorem each_cons (f : α → Rendering β) (a : α) (rest : List α) :
    each f (a :: rest) = do
      let b ← f a
      let bs ← each f rest
      return b :: bs := rfl

/-- Rendering items one by one may stop anywhere and go on. -/
theorem each_append (f : α → Rendering β) (items more : List α) :
    each f (items ++ more) = do
      let bs ← each f items
      let cs ← each f more
      return bs ++ cs := by
  induction items with
  | nil => simp
  | cons a items ih => simp [each_cons, ih]

theorem each_map {γ : Type} (f : β → Rendering γ) (g : α → β) (items : List α) :
    each f (items.map g) = each (fun a => f (g a)) items := by
  induction items with
  | nil => rfl
  | cons a items ih => simp [each_cons, ih]

theorem each_congr {f g : α → Rendering β} {items : List α} (h : ∀ a ∈ items, f a = g a) :
    each f items = each g items := by
  induction items with
  | nil => rfl
  | cons a items ih =>
      rw [each_cons, each_cons, h a List.mem_cons_self,
        ih fun b hb => h b (List.mem_cons_of_mem a hb)]

/-! ## Renderings that end with a result -/

theorem outcome_bind_ok {x : Rendering α} {f : α → Rendering β} {b : β} {binds after : List Value}
    (h : (x >>= f).outcome binds = (.ok b, after)) :
    ∃ a mid, x.outcome binds = (.ok a, mid) ∧ (f a).outcome mid = (.ok b, after) := by
  rw [outcome_bind] at h
  cases hx : x.outcome binds with
  | mk answer mid =>
      rw [hx] at h
      cases answer with
      | ok a => exact ⟨a, mid, rfl, h⟩
      | error e => cases congrArg Prod.fst h

theorem outcome_each_ok {f : α → Rendering β} {items : List α} {bs : List β}
    {binds after : List Value} (h : (each f items).outcome binds = (.ok bs, after)) :
    ∀ a ∈ items, ∃ b start stop, (f a).outcome start = (.ok b, stop) := by
  induction items generalizing bs binds after with
  | nil =>
      intro a ha
      cases ha
  | cons a items ih =>
      rw [each_cons] at h
      obtain ⟨b, mid, hb, h⟩ := outcome_bind_ok h
      obtain ⟨rest, mid', hrest, -⟩ := outcome_bind_ok h
      intro a' ha'
      rcases List.mem_cons.mp ha' with rfl | ha'
      · exact ⟨b, binds, mid, hb⟩
      · exact ih hrest a' ha'

/-! ## Answers and recorded literals -/

/-- Whatever was recorded before, a rendering ends with this answer and adds
these literals. -/
def Gives (x : Rendering α) (answer : Except RenderError α) (recorded : List Value) : Prop :=
  ∀ binds, x.outcome binds = (answer, binds ++ recorded)

/-- A rendering gives one thing only. -/
theorem Gives.unique {x : Rendering α} {a a' : Except RenderError α} {r r' : List Value}
    (h : Gives x a r) (h' : Gives x a' r') : a = a' ∧ r = r' := by
  have hx := (h []).symm.trans (h' [])
  exact ⟨congrArg Prod.fst hx, by simpa using congrArg Prod.snd hx⟩

theorem gives_pure (a : α) : Gives (pure a) (.ok a) [] := by
  intro binds
  simp

theorem gives_fail (e : RenderError) : Gives (fail e : Rendering α) (.error e) [] := by
  intro binds
  simp

theorem gives_bindLiteral (v : Value) : Gives (bindLiteral v) (.ok [.placeholder v]) [v] := by
  intro binds
  simp

theorem gives_bind_ok {x : Rendering α} {f : α → Rendering β} {a : α}
    {answer : Except RenderError β} {r r' : List Value}
    (hx : Gives x (.ok a) r) (hf : Gives (f a) answer r') :
    Gives (x >>= f) answer (r ++ r') := by
  intro binds
  rw [outcome_bind, hx binds]
  change (f a).outcome (binds ++ r) = _
  rw [hf, List.append_assoc]

theorem gives_bind_error {x : Rendering α} {f : α → Rendering β} {e : RenderError}
    {r : List Value} (hx : Gives x (.error e) r) : Gives (x >>= f) (.error e) r := by
  intro binds
  rw [outcome_bind, hx binds]

/-! ## Regular renderings -/

/-- A rendering that gives something. -/
def Regular (x : Rendering α) : Prop := ∃ answer recorded, Gives x answer recorded

theorem regular_pure (a : α) : Regular (pure a) := ⟨_, _, gives_pure a⟩

theorem regular_fail (e : RenderError) : Regular (fail e : Rendering α) := ⟨_, _, gives_fail e⟩

theorem regular_bindLiteral (v : Value) : Regular (bindLiteral v) := ⟨_, _, gives_bindLiteral v⟩

theorem Regular.bind {x : Rendering α} {f : α → Rendering β} (hx : Regular x)
    (hf : ∀ a, Regular (f a)) : Regular (x >>= f) := by
  obtain ⟨answer, r, hx⟩ := hx
  cases answer with
  | error e => exact ⟨_, _, gives_bind_error hx⟩
  | ok a =>
      obtain ⟨answer', r', hf⟩ := hf a
      exact ⟨_, _, gives_bind_ok hx hf⟩

/-- A regular rendering that ends in some way from some start does so from every
start. -/
theorem Regular.gives {x : Rendering α} (hx : Regular x) {binds after : List Value}
    {answer : Except RenderError α} (h : x.outcome binds = (answer, after)) :
    ∃ recorded, after = binds ++ recorded ∧ Gives x answer recorded := by
  obtain ⟨answer', r, hr⟩ := hx
  have heq := (hr binds).symm.trans h
  obtain rfl : answer' = answer := congrArg Prod.fst heq
  exact ⟨r, (congrArg Prod.snd heq).symm, hr⟩

theorem Gives.bind_ok_inv {x : Rendering α} {f : α → Rendering β} (hx : Regular x)
    (hf : ∀ a, Regular (f a)) {b : β} {recorded : List Value}
    (h : Gives (x >>= f) (.ok b) recorded) :
    ∃ a r r', Gives x (.ok a) r ∧ Gives (f a) (.ok b) r' ∧ recorded = r ++ r' := by
  obtain ⟨answer, r, hr⟩ := hx
  cases answer with
  | error e =>
      have := (h.unique (gives_bind_error hr)).1
      cases this
  | ok a =>
      obtain ⟨answer', r', hr'⟩ := hf a
      obtain ⟨rfl, rfl⟩ := h.unique (gives_bind_ok hr hr')
      exact ⟨a, r, r', hr, hr', rfl⟩

/-! ## Closed properties -/

/-- A property of renderings that is closed under doing one after another. -/
structure Closed (Q : {α : Type} → Rendering α → Prop) : Prop where
  pure : ∀ {α : Type} (a : α), Q (pure a : Rendering α)
  bind : ∀ {α β : Type} {x : Rendering α} {f : α → Rendering β}, Q x → (∀ a, Q (f a)) → Q (x >>= f)

theorem Closed.each {Q : {α : Type} → Rendering α → Prop} (hQ : Closed Q) {f : α → Rendering β}
    {items : List α} (h : ∀ a ∈ items, Q (f a)) : Q (Rendering.each f items) := by
  induction items with
  | nil => exact hQ.pure []
  | cons a items ih =>
      rw [each_cons]
      refine hQ.bind (h a List.mem_cons_self) fun b => ?_
      exact hQ.bind (ih fun a' ha' => h a' (List.mem_cons_of_mem a ha')) fun bs => hQ.pure _

theorem closed_regular : Closed @Regular := ⟨regular_pure, fun hx hf => hx.bind hf⟩

end QueryTree.Rendering
