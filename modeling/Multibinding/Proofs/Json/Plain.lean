import Multibinding.Json.Value

/-!
# Plain JSON

A text is plain if nothing in it is lost when it is read: no object repeats a key, and every number
is an integer of 64 bits other than minus zero, which would be read as a floating-point number. The
same is said of values, of which the numbers have been read already.

The height of a value counts the arrays and objects inside one another. In a text, those that are
too deep to be read do not count.

* `NumberText.value?_of_isInteger`: what a plain number literal is read as;
* `Node.isPlainItems_iff`, `Value.heightItems_le_iff`, …: plainness and height, item by item.
-/

namespace Multibinding.Json

namespace NumberText

/-- Whether a literal is an integer of 64 bits, signed or unsigned, other than minus zero. -/
def isInteger (t : NumberText) : Bool :=
  t.fraction.isNone && t.exponent.isNone &&
    if t.negative then 0 < ofDigits t.whole && ofDigits t.whole ≤ Word.half
    else ofDigits t.whole < Word.count

/-- More digits make no number smaller. -/
theorem le_foldl (n : Nat) (digits : List Nat) :
    n ≤ digits.foldl (fun n d => n * 10 + d) n := by
  induction digits generalizing n with
  | nil => exact Nat.le_refl n
  | cons d rest ih => exact Nat.le_trans (by omega) (ih (n * 10 + d))

/-- If the result fits a word, all digits are appended. -/
theorem absorb_eq {n : Nat} {digits : List Nat}
    (h : digits.foldl (fun n d => n * 10 + d) n < Word.count) :
    absorb n digits = (digits.foldl (fun n d => n * 10 + d) n, []) := by
  induction digits generalizing n with
  | nil => rfl
  | cons d rest ih =>
    have hstep : n * 10 + d < Word.count := Nat.lt_of_le_of_lt (le_foldl _ rest) h
    rw [absorb, if_pos hstep, ih h, List.foldl_cons]

end NumberText

/-- Whether a number is an integer of 64 bits, signed or unsigned. -/
def Number.isInteger : Number → Bool
  | .int value => -(Word.half : Int) ≤ value && value < Word.count
  | .float _ => false

/-- The integer that an integer literal writes. -/
def NumberText.integer (t : NumberText) : Int :=
  if t.negative then -(ofDigits t.whole : Int) else ofDigits t.whole

/-- An integer literal is read as the integer that it writes. -/
theorem NumberText.value?_of_isInteger {t : NumberText} (h : t.isInteger) :
    t.value? = some (.int t.integer) ∧ (Number.int t.integer).isInteger := by
  obtain ⟨negative, whole, fraction, exponent⟩ := t
  simp only [isInteger, Bool.and_eq_true, Option.isNone_iff_eq_none] at h
  obtain ⟨⟨rfl, rfl⟩, hrange⟩ := h
  have hhalf : Word.half < Word.count := by decide
  -- The limit for the digits depends on the sign: a negative integer has to fit a signed word.
  cases negative with
  | false =>
    have hwhole : ofDigits whole < Word.count := by simpa using hrange
    have habsorb : absorb 0 whole = (ofDigits whole, []) := absorb_eq hwhole
    refine ⟨by simp [value?, habsorb, integer], ?_⟩
    simp only [integer, Number.isInteger, Bool.false_eq_true, if_false, Bool.and_eq_true,
      decide_eq_true_eq]
    omega
  | true =>
    simp only [if_true, Bool.and_eq_true, decide_eq_true_eq] at hrange
    have hwhole : ofDigits whole < Word.count := by omega
    have habsorb : absorb 0 whole = (ofDigits whole, []) := absorb_eq hwhole
    refine ⟨by simp [value?, habsorb, hrange, integer], ?_⟩
    simp only [integer, Number.isInteger, if_true, Bool.and_eq_true, decide_eq_true_eq]
    omega

/-- The text of a key, if it has one. -/
def Key.text? : Key → Option String
  | .text s => some s
  | .unpaired => none

namespace Node

mutual

/-- Whether, in a value of a text and in all that it holds, no object repeats a key and every number
is an integer of 64 bits other than minus zero. -/
def isPlain : Node → Bool
  | .null | .bool _ | .string _ | .unpaired | .broken _ => true
  | .number text => text.isInteger
  | .array items _ => isPlainItems items
  | .object members _ => (members.filterMap (·.1.text?)).Nodup && isPlainMembers members
  | .deep content => content.isPlain

/-- Whether all items are plain. -/
def isPlainItems : List Node → Bool
  | [] => true
  | n :: rest => n.isPlain && isPlainItems rest

/-- Whether the values of all members are plain. -/
def isPlainMembers : List (Key × Node) → Bool
  | [] => true
  | (_, n) :: rest => n.isPlain && isPlainMembers rest

end

mutual

/-- How many arrays and objects are inside one another, those that can be read. -/
def height : Node → Nat
  | .array items _ => heightItems items + 1
  | .object members _ => heightMembers members + 1
  | .null | .bool _ | .number _ | .string _ | .unpaired | .deep _ | .broken _ => 0

/-- The largest height of an item. -/
def heightItems : List Node → Nat
  | [] => 0
  | n :: rest => max n.height (heightItems rest)

/-- The largest height of a member. -/
def heightMembers : List (Key × Node) → Nat
  | [] => 0
  | (_, n) :: rest => max n.height (heightMembers rest)

end

theorem isPlainItems_iff {items : List Node} :
    isPlainItems items ↔ ∀ n ∈ items, n.isPlain := by
  induction items with
  | nil => simp [isPlainItems]
  | cons n rest ih => simp [isPlainItems, ih]

theorem isPlainMembers_iff {members : List (Key × Node)} :
    isPlainMembers members ↔ ∀ m ∈ members, m.2.isPlain := by
  induction members with
  | nil => simp [isPlainMembers]
  | cons m rest ih => simp [isPlainMembers, ih]

theorem heightItems_le_iff {items : List Node} {h : Nat} :
    heightItems items ≤ h ↔ ∀ n ∈ items, n.height ≤ h := by
  induction items with
  | nil => simp [heightItems]
  | cons n rest ih => rw [heightItems, Nat.max_le, ih, List.forall_mem_cons]

theorem heightMembers_le_iff {members : List (Key × Node)} {h : Nat} :
    heightMembers members ≤ h ↔ ∀ m ∈ members, m.2.height ≤ h := by
  induction members with
  | nil => simp [heightMembers]
  | cons m rest ih => rw [heightMembers, Nat.max_le, ih, List.forall_mem_cons]

end Node

namespace Value

mutual

/-- Whether, in a value and in all that it holds, no object repeats a key and every number is an
integer. -/
def isPlain : Value → Bool
  | .null | .bool _ | .string _ => true
  | .number value => value.isInteger
  | .array items => isPlainItems items
  | .object members => (members.map (·.1)).Nodup && isPlainMembers members

/-- Whether all items are plain. -/
def isPlainItems : List Value → Bool
  | [] => true
  | v :: rest => v.isPlain && isPlainItems rest

/-- Whether the values of all members are plain. -/
def isPlainMembers : List (String × Value) → Bool
  | [] => true
  | (_, v) :: rest => v.isPlain && isPlainMembers rest

end

mutual

/-- How many arrays and objects are inside one another. -/
def height : Value → Nat
  | .array items => heightItems items + 1
  | .object members => heightMembers members + 1
  | .null | .bool _ | .number _ | .string _ => 0

/-- The largest height of an item. -/
def heightItems : List Value → Nat
  | [] => 0
  | v :: rest => max v.height (heightItems rest)

/-- The largest height of a member. -/
def heightMembers : List (String × Value) → Nat
  | [] => 0
  | (_, v) :: rest => max v.height (heightMembers rest)

end

theorem isPlainItems_iff {items : List Value} :
    isPlainItems items ↔ ∀ v ∈ items, v.isPlain := by
  induction items with
  | nil => simp [isPlainItems]
  | cons v rest ih => simp [isPlainItems, ih]

theorem isPlainMembers_iff {members : List (String × Value)} :
    isPlainMembers members ↔ ∀ m ∈ members, m.2.isPlain := by
  induction members with
  | nil => simp [isPlainMembers]
  | cons m rest ih => simp [isPlainMembers, ih]

theorem heightItems_le_iff {items : List Value} {h : Nat} :
    heightItems items ≤ h ↔ ∀ v ∈ items, v.height ≤ h := by
  induction items with
  | nil => simp [heightItems]
  | cons v rest ih => rw [heightItems, Nat.max_le, ih, List.forall_mem_cons]

theorem heightMembers_le_iff {members : List (String × Value)} {h : Nat} :
    heightMembers members ≤ h ↔ ∀ m ∈ members, m.2.height ≤ h := by
  induction members with
  | nil => simp [heightMembers]
  | cons m rest ih => rw [heightMembers, Nat.max_le, ih, List.forall_mem_cons]

end Value

end Multibinding.Json
