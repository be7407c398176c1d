/-!
# Results

When a computation that may fail has a result, step by step and item by item.

* `bind_eq_ok_iff`, `map_eq_ok_iff`, `mapError_eq_ok_iff`, `toOption_eq_some_iff`: single steps;
* `exists_of_mem_mapM`: where the results for a list come from;
* `exists_of_mapM_append_cons`: the result for one item of a list, and what another one changes;
* `of_foldlM`: what stays true while a list is gone through;
* `mapM_map_eq_ok`: when what was done to a list is undone.

A computation that acts on a state goes on from the state that it has come to: `run_bind_eq`.
-/

namespace Multibinding

variable {ε α β : Type}

/-- A sequence of two steps succeeds if both of them do. -/
theorem bind_eq_ok_iff {x : Except ε α} {f : α → Except ε β} {b : β} :
    x >>= f = .ok b ↔ ∃ a, x = .ok a ∧ f a = .ok b := by
  cases x with
  | error e => exact iff_of_false nofun nofun
  | ok a =>
    constructor
    · intro h
      exact ⟨a, rfl, h⟩
    · rintro ⟨a, ⟨⟩, h⟩
      exact h

/-- A result is mapped to a value exactly if it is a value that is mapped to it. -/
theorem map_eq_ok_iff {x : Except ε α} {f : α → β} {b : β} :
    x.map f = .ok b ↔ ∃ a, x = .ok a ∧ f a = b := by
  cases x with
  | error e => exact iff_of_false nofun nofun
  | ok a =>
    constructor
    · rintro ⟨⟩
      exact ⟨a, rfl, rfl⟩
    · rintro ⟨a, ⟨⟩, rfl⟩
      rfl

/-- Another wording of an error changes no value. -/
theorem mapError_eq_ok_iff {ε' : Type} {x : Except ε α} {f : ε → ε'} {a : α} :
    x.mapError f = .ok a ↔ x = .ok a := by
  cases x with
  | error e => exact iff_of_false nofun nofun
  | ok b =>
    constructor <;>
      · rintro ⟨⟩
        rfl

/-- A result is turned into a value exactly if it is that value. -/
theorem toOption_eq_some_iff {x : Except ε α} {a : α} : x.toOption = some a ↔ x = .ok a := by
  cases x with
  | error e => exact iff_of_false nofun nofun
  | ok b =>
    constructor <;>
      · rintro ⟨⟩
        rfl

/-- The results for a list are those for its items. -/
theorem exists_of_mem_mapM {f : α → Except ε β} {as : List α} {bs : List β}
    (h : as.mapM f = .ok bs) {b : β} (hb : b ∈ bs) : ∃ a ∈ as, f a = .ok b := by
  induction as generalizing bs with
  | nil =>
    cases h
    cases hb
  | cons a as ih =>
    rw [List.mapM_cons] at h
    obtain ⟨b', hb', h⟩ := bind_eq_ok_iff.mp h
    obtain ⟨bs', hbs', h⟩ := bind_eq_ok_iff.mp h
    cases h
    rcases List.mem_cons.mp hb with rfl | hmem
    · exact ⟨a, List.mem_cons_self, hb'⟩
    · obtain ⟨a', ha', hf⟩ := ih hbs' hmem
      exact ⟨a', List.mem_cons_of_mem a ha', hf⟩

/-- There are as many results for a list as items in it. -/
theorem length_of_mapM {f : α → Except ε β} {as : List α} {bs : List β}
    (h : as.mapM f = .ok bs) : bs.length = as.length := by
  induction as generalizing bs with
  | nil =>
    cases h
    rfl
  | cons a as ih =>
    rw [List.mapM_cons] at h
    obtain ⟨b, -, h⟩ := bind_eq_ok_iff.mp h
    obtain ⟨bs', hbs', h⟩ := bind_eq_ok_iff.mp h
    cases h
    rw [List.length_cons, List.length_cons, ih hbs']

/-- One result for a list is that for the item at its place, and it alone is another one for another
item there. -/
theorem exists_of_mapM_append_cons {f : α → Except ε β} {before behind : List α} {a : α}
    {bs : List β} (h : (before ++ a :: behind).mapM f = .ok bs) :
    ∃ first b rest, bs = first ++ b :: rest ∧ first.length = before.length ∧ f a = .ok b ∧
      ∀ a' b', f a' = .ok b' → (before ++ a' :: behind).mapM f = .ok (first ++ b' :: rest) := by
  rw [List.mapM_append, List.mapM_cons] at h
  obtain ⟨first, hfirst, h⟩ := bind_eq_ok_iff.mp h
  obtain ⟨bs', hbs', h⟩ := bind_eq_ok_iff.mp h
  obtain ⟨b, hb, hbs'⟩ := bind_eq_ok_iff.mp hbs'
  obtain ⟨rest, hrest, hbs'⟩ := bind_eq_ok_iff.mp hbs'
  cases hbs'
  cases h
  refine ⟨first, b, rest, rfl, length_of_mapM hfirst, hb, fun a' b' hb' => ?_⟩
  rw [List.mapM_append, List.mapM_cons, hfirst, hb', hrest]
  rfl

/-- What is true at the start stays true when a list is gone through, if every item keeps it. -/
theorem of_foldlM {f : β → α → Except ε β} {as : List α} {b b' : β} (P : β → Prop) (hb : P b)
    (hstep : ∀ a ∈ as, ∀ b b', P b → f b a = .ok b' → P b') (h : as.foldlM f b = .ok b') :
    P b' := by
  induction as generalizing b with
  | nil =>
    cases h
    exact hb
  | cons a as ih =>
    obtain ⟨ha, has⟩ := List.forall_mem_cons.mp hstep
    rw [List.foldlM_cons] at h
    obtain ⟨b₁, hb₁, h⟩ := bind_eq_ok_iff.mp h
    exact ih (ha b b₁ hb hb₁) has h

/-- What follows an action goes on from the state that the action leaves. -/
theorem run_bind_eq {σ : Type} (act : StateM σ α) (next : α → StateM σ β) (s : σ) :
    (act >>= next).run s = (next (act.run s).1).run (act.run s).2 :=
  rfl

/-- If every item can be undone, so can the list. -/
theorem mapM_map_eq_ok {f : β → Except ε α} {g : α → β} {as : List α}
    (h : ∀ a ∈ as, f (g a) = .ok a) : (as.map g).mapM f = .ok as := by
  induction as with
  | nil => rfl
  | cons a as ih =>
    obtain ⟨ha, has⟩ := List.forall_mem_cons.mp h
    rw [List.map_cons, List.mapM_cons, ha, ih has]
    rfl

end Multibinding
