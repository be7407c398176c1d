import Mathlib.Data.List.TakeWhile
import Multibinding.Toml.Document

/-!
# What scanners take

Equations for the scanners of TOML texts on a text that starts with what they take. What follows it
is arbitrary, except that it must not be more of the same where a scanner takes as much as it can.

* `run_bind_of_some`, `run_orElse_of_none`: a scanner step by step;
* `Repeats`, `Repeats.run_many`: a scanner that is repeated for as long as it succeeds;
* `run_text_append`, `run_whileTrue`: texts and characters of a kind;
* `run_gap`, `run_lineRest`: what stands between values and behind them.
-/

namespace Multibinding.Toml.Scan

variable {α β : Type}

section Steps

variable {scan : Scan α} {s s' : List Char} {a : α}

/-- A scanner goes on where the one before it has stopped. -/
theorem run_bind_of_some (h : scan.run s = some (a, s')) (f : α → Scan β) :
    (scan >>= f).run s = (f a).run s' := by
  rw [StateT.run_bind, h]
  rfl

/-- It does not go on after a failure. -/
theorem run_bind_of_none (h : scan.run s = none) (f : α → Scan β) :
    (scan >>= f).run s = none := by
  rw [StateT.run_bind, h]
  rfl

/-- An alternative is not tried after a success. -/
theorem run_orElse_of_some (h : scan.run s = some (a, s')) (other : Scan α) :
    (scan <|> other).run s = some (a, s') := by
  show (scan.run s <|> other.run s) = _
  rw [h]
  rfl

/-- It is tried after a failure, from the same place. -/
theorem run_orElse_of_none (h : scan.run s = none) (other : Scan α) :
    (scan <|> other).run s = other.run s := by
  show (scan.run s <|> other.run s) = _
  rw [h]
  rfl

theorem run_optional_of_some (h : scan.run s = some (a, s')) :
    (optional scan).run s = some (some a, s') :=
  run_orElse_of_some (run_bind_of_some h _) _

theorem run_optional_of_none (h : scan.run s = none) :
    (optional scan).run s = some (none, s) :=
  run_orElse_of_none (run_bind_of_none h _) _

end Steps

/-- What a scanner takes one after another for as long as it succeeds, from a text to what is left
of it. -/
inductive Repeats (scan : Scan α) : List Char → List α → List Char → Prop
  | stop {s : List Char} (h : scan.run s = none) : Repeats scan s [] s
  | turn {s s' s'' : List Char} {a : α} {as : List α} (h : scan.run s = some (a, s'))
      (hlt : s'.length < s.length) (hrest : Repeats scan s' as s'') : Repeats scan s (a :: as) s''

/-- A text that is not empty makes another one longer. -/
theorem length_lt_append {t : List Char} (h : t ≠ []) (s : List Char) :
    s.length < (t ++ s).length := by
  rw [List.length_append]
  exact Nat.lt_add_of_pos_left (List.length_pos_iff.mpr h)

namespace Repeats

variable {scan : Scan α} {s s' : List Char} {as : List α}

/-- As many turns as there are characters are enough. -/
theorem run_atMost (h : Repeats scan s as s') {count : Nat} (hcount : s.length ≤ count) :
    (atMost count scan).run s = some (as, s') := by
  -- The text gets shorter in every turn, so that the count cannot run out before the turns do.
  induction h generalizing count with
  | stop h =>
    cases count with
    | zero => rfl
    | succ count =>
      rw [atMost, run_bind_of_some (run_optional_of_none h)]
      rfl
  | @turn s s₁ s₂ a as h hlt _ ih =>
    obtain ⟨count, rfl⟩ := Nat.exists_eq_add_of_lt (Nat.lt_of_lt_of_le hlt hcount)
    rw [atMost, run_bind_of_some (run_optional_of_some h)]
    dsimp only
    rw [run_bind_of_some (ih (Nat.le_add_right _ _))]
    rfl

theorem run_many (h : Repeats scan s as s') : (many scan).run s = some (as, s') :=
  h.run_atMost (Nat.le_refl _)

/-- Each piece of a text is taken by a turn of its own, if the scanner takes it whatever follows. -/
theorem of_flatMap {ι : Type} {text : ι → List Char} {value : ι → α} {parts : List ι}
    (hparts : ∀ part ∈ parts, text part ≠ [] ∧
      ∀ rest, scan.run (text part ++ rest) = some (value part, rest))
    (hrest : Repeats scan s as s') :
    Repeats scan (parts.flatMap text ++ s) (parts.map value ++ as) s' := by
  induction parts with
  | nil => exact hrest
  | cons part parts ih =>
    obtain ⟨⟨hne, hread⟩, hparts⟩ := List.forall_mem_cons.mp hparts
    rw [List.flatMap_cons, List.append_assoc]
    exact .turn (hread _) (length_lt_append hne _) (ih hparts)

end Repeats

/-- Parts with separators between them are a first one and then each with the separator before
it. -/
theorem run_separated {separator : Scan Unit} {scan : Scan α} {s s' s'' : List Char} {a : α}
    {as : List α} (hfirst : scan.run s = some (a, s'))
    (hrest : Repeats (separator >>= fun _ => scan) s' as s'') :
    (separated separator scan).run s = some (a :: as, s'') := by
  rw [separated, run_bind_of_some hfirst, run_bind_of_some hrest.run_many]
  rfl

theorem run_separated_of_none {separator : Scan Unit} {scan : Scan α} {s : List Char}
    (hfirst : scan.run s = none) : (separated separator scan).run s = none :=
  run_bind_of_none hfirst _

section Characters

/-- A look at what is left takes nothing. -/
theorem run_rest (s : List Char) : rest.run s = some (s, s) := rfl

theorem run_get (s : List Char) : (get : Scan (List Char)).run s = some (s, s) := rfl

theorem run_next (c : Char) (s : List Char) : next.run (c :: s) = some (c, s) := rfl

theorem run_char_self (c : Char) (s : List Char) : (char c).run (c :: s) = some ((), s) := by
  rw [char, run_bind_of_some (run_next c s), if_pos rfl]
  rfl

/-- No character is taken where it does not come first. -/
theorem run_char_of_ne {c : Char} {s : List Char} (h : ∀ d ∈ s.head?, d ≠ c) :
    (char c).run s = none := by
  cases s with
  | nil => rfl
  | cons d s =>
    rw [char, run_bind_of_some (run_next d s), if_neg (h d rfl)]
    rfl

theorem run_satisfying {p : Char → Bool} {c : Char} (h : p c = true) (s : List Char) :
    (satisfying p).run (c :: s) = some (c, s) := by
  rw [satisfying, run_bind_of_some (run_next c s), if_pos h]
  rfl

theorem run_satisfying_of_not {p : Char → Bool} {s : List Char}
    (h : ∀ c ∈ s.head?, p c = false) : (satisfying p).run s = none := by
  cases s with
  | nil => rfl
  | cons c s =>
    rw [satisfying, run_bind_of_some (run_next c s), if_neg (by simp [h c rfl])]
    rfl

/-- A text is taken from the front of any text that starts with it. -/
theorem run_text_append (t : String) (s : List Char) :
    (text t).run (t.toList ++ s) = some ((), s) := by
  rw [text, run_bind_of_some (run_get _),
    if_pos (List.isPrefixOf_iff_prefix.mpr (List.prefix_append _ _)), ← String.length_toList,
    List.drop_left]
  rfl

/-- It is not taken where it is not the front. -/
theorem run_text_eq_none {t : String} {s : List Char} (h : ¬t.toList <+: s) :
    (text t).run s = none := by
  rw [text, run_bind_of_some (run_get s),
    if_neg fun hprefix => h (List.isPrefixOf_iff_prefix.mp hprefix)]
  rfl

/-- All characters up to the first that is not wanted are taken. -/
theorem run_whileTrue {p : Char → Bool} {cs rest : List Char} (hcs : ∀ c ∈ cs, p c = true)
    (hrest : ∀ c ∈ rest.head?, p c = false) :
    (whileTrue p).run (cs ++ rest) = some (cs, rest) := by
  have hrun : (whileTrue p).run (cs ++ rest) =
      some ((cs ++ rest).takeWhile p, (cs ++ rest).dropWhile p) := rfl
  rw [hrun, List.takeWhile_append_of_pos hcs, List.dropWhile_append_of_pos hcs]
  cases rest with
  | nil => simp
  | cons c rest => simp [hrest c rfl]

end Characters

section Blanks

/-- Blanks are taken up to what is no blank. -/
theorem run_blanks (cs : List Char) {rest : List Char} (hcs : ∀ c ∈ cs, c = ' ' ∨ c = '\t')
    (hrest : ∀ c ∈ rest.head?, c ≠ ' ' ∧ c ≠ '\t') : blanks.run (cs ++ rest) = some ((), rest) := by
  rw [blanks, run_bind_of_some (run_whileTrue (by simpa using hcs) (by simpa using hrest))]
  rfl

/-- There may be none. -/
theorem run_blanks_nil {rest : List Char} (hrest : ∀ c ∈ rest.head?, c ≠ ' ' ∧ c ≠ '\t') :
    blanks.run rest = some ((), rest) :=
  run_blanks [] (List.forall_mem_nil _) hrest

theorem run_lineEnd (s : List Char) : lineEnd.run ('\n' :: s) = some ((), s) :=
  run_orElse_of_some (run_text_append "\n" s) _

/-- A line end starts with a line feed or a carriage return. -/
theorem run_lineEnd_of_ne {s : List Char} (h : ∀ c ∈ s.head?, c ≠ '\n' ∧ c ≠ '\r') :
    lineEnd.run s = none := by
  have hfeed : ¬"\n".toList <+: s := by
    rintro ⟨s', rfl⟩
    exact (h '\n' rfl).1 rfl
  have hreturn : ¬"\r\n".toList <+: s := by
    rintro ⟨s', rfl⟩
    exact (h '\r' rfl).2 rfl
  exact (run_orElse_of_none (run_text_eq_none hfeed) _).trans (run_text_eq_none hreturn)

/-- Nothing but a line feed ends the line. -/
theorem run_lineRest (s : List Char) : lineRest.run ('\n' :: s) = some ((), s) := by
  have hblanks : blanks.run ('\n' :: s) = some ((), '\n' :: s) := run_blanks_nil (by simp)
  have hcomment : comment.run ('\n' :: s) = none :=
    run_bind_of_none (run_char_of_ne (by simp)) _
  have hend : atEnd.run ('\n' :: s) = none := rfl
  rw [lineRest, run_bind_of_some hblanks, run_bind_of_some (run_optional_of_none hcomment),
    run_orElse_of_none hend]
  exact run_lineEnd s

/-- The blanks and line ends before a value or a bracket are taken. -/
theorem run_gap {cs rest : List Char} (hcs : ∀ c ∈ cs, c = ' ' ∨ c = '\n')
    (hrest : ∀ c ∈ rest.head?, c ≠ ' ' ∧ c ≠ '\t' ∧ c ≠ '\n' ∧ c ≠ '\r' ∧ c ≠ '#') :
    gap.run (cs ++ rest) = some ((), rest) := by
  set scan : Scan Unit := lineEnd <|> (do let _ ← satisfying fun c => c == ' ' || c == '\t') <|>
    (do comment; lineEnd) with hscan
  have hstop : scan.run rest = none := by
    rw [hscan, run_orElse_of_none (run_lineEnd_of_ne fun c hc => ⟨(hrest c hc).2.2.1,
      (hrest c hc).2.2.2.1⟩), run_orElse_of_none (run_bind_of_none (run_satisfying_of_not
        fun c hc => by simp [hrest c hc]) _)]
    exact run_bind_of_none (run_bind_of_none (run_char_of_ne fun c hc => (hrest c hc).2.2.2.2) _) _
  -- Each character is a turn of its own.
  have hread : ∀ c ∈ cs, [c] ≠ [] ∧ ∀ s, scan.run ([c] ++ s) = some ((), s) := by
    intro c hc
    refine ⟨List.cons_ne_nil _ _, fun s => ?_⟩
    rcases hcs c hc with rfl | rfl
    · rw [hscan, run_orElse_of_none (run_lineEnd_of_ne (by simp))]
      exact run_orElse_of_some (run_bind_of_some (run_satisfying (by decide) s) _) _
    · exact run_orElse_of_some (run_lineEnd s) _
  have hrepeats := Repeats.of_flatMap hread (.stop hstop)
  rw [List.flatMap_singleton'] at hrepeats
  rw [gap, run_bind_of_some hrepeats.run_many]
  rfl

/-- There may be none of them. -/
theorem run_gap_nil {rest : List Char}
    (hrest : ∀ c ∈ rest.head?, c ≠ ' ' ∧ c ≠ '\t' ∧ c ≠ '\n' ∧ c ≠ '\r' ∧ c ≠ '#') :
    gap.run rest = some ((), rest) :=
  run_gap (List.forall_mem_nil _) hrest

end Blanks

end Multibinding.Toml.Scan
