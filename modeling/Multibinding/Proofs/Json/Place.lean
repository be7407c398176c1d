import Multibinding.Proofs.Json.Assembly

/-!
# Places in a document

A part of a text leads to a place where a value is due: inside of arrays and objects that have been
opened, of each of which some items or members are done. What the rest of the text adds to them does
not depend on the value. So texts that differ in the value only have documents that differ at the
place only.

* `Document.Leads`: a part of a text leads to a place;
* `Document.Closes`: a document with a gap at a place;
* `Document.exists_closes`: the rest of a text closes what is open at a place;
* `Document.exists_parse_of_leads`: the documents of texts that differ in a value.
-/

namespace Multibinding.Json

open Document

namespace Scanner

/-- The scanner behind a part of a text, with the tokens that it has read. -/
def run : Mode → List Char → Mode × List Token
  | mode, [] => (mode, [])
  | mode, c :: rest =>
    let (mode, tokens) := step mode c
    let (mode, more) := run mode rest
    (mode, tokens ++ more)

/-- A text is read part by part. -/
theorem scan_append (mode : Mode) (first rest : List Char) :
    scan mode (first ++ rest) = (run mode first).2 ++ scan (run mode first).1 rest := by
  induction first generalizing mode with
  | nil => rfl
  | cons c first ih =>
    rw [List.cons_append, scan, run]
    dsimp only
    rw [ih, List.append_assoc]

end Scanner

namespace Document

/-- A part of a text leads to a place where a value is due, inside the arrays and objects of a
stack. -/
structure Leads (text : List Char) (stack : List Frame) : Prop where
  /-- No token is left unfinished. -/
  mode : (Scanner.run .between text).1 = .between
  /-- The tokens leave a value due. -/
  state : (Scanner.run .between text).2.foldl step (.running .value []) = .running .value stack

/-- An array or object is completed around a value that goes on where its items or members are done,
inside of others. -/
inductive Frame.Wraps (outer : List Frame) : Frame → (Node → Node) → Prop where
  | items (done behind : List Node) (unclosed : Option Defect) :
    Wraps outer (.items done) fun n =>
      container (.array (done.reverse ++ n :: behind) unclosed) outer
  | members (done : List (Key × Node)) (key : Key) (behind : List (Key × Node))
      (closing : Closing Node) :
    Wraps outer (.members done key) fun n =>
      container (.object (done.reverse ++ (key, n) :: behind) closing) outer

/-- All arrays and objects of a stack are completed around a value. -/
inductive Closes : List Frame → (Node → Node) → Prop where
  | nil : Closes [] id
  | cons {frame : Frame} {outer : List Frame} {wrap context : Node → Node}
    (hwrap : frame.Wraps outer wrap) (hcontext : Closes outer context) :
    Closes (frame :: outer) (context ∘ wrap)

/-- The value of a frame is done, and perhaps more. -/
inductive Frame.Filled : Frame → (Node → Frame) → Prop where
  | items (done more : List Node) : Filled (.items done) fun n => .items (more ++ n :: done)
  | members (done : List (Key × Node)) (key : Key) (more : List (Key × Node)) (next : Key) :
    Filled (.members done key) fun n => .members (more ++ (key, n) :: done) next

/-- The value of a frame is done, and something is due behind it. -/
inductive Frame.Passed : Frame → (Node → Due) → Prop where
  | itemEnd (done more : List Node) :
    Passed (.items done) fun n => .itemEnd (more ++ n :: done)
  | memberEnd (done : List (Key × Node)) (key : Key) (more : List (Key × Node)) :
    Passed (.members done key) fun n => .memberEnd (more ++ (key, n) :: done)
  | nextKey (done : List (Key × Node)) (key : Key) (more : List (Key × Node)) :
    Passed (.members done key) fun n => .nextKey (more ++ (key, n) :: done)
  | colon (done : List (Key × Node)) (key : Key) (more : List (Key × Node)) (next : Key) :
    Passed (.members done key) fun n => .colon (more ++ (key, n) :: done) next

/-- Something is due inside of the document. -/
def Due.IsInside : Due → Prop
  | .nothing _ => False
  | _ => True

/-- A state of the assembly behind the value of a frame, as it depends on the value. -/
inductive Frame.Holds (frame : Frame) (outer : List Frame) : (Node → State) → Prop where
  | due {due : Node → Due} (h : frame.Passed due) :
    Holds frame outer fun n => .running (due n) outer
  | inside {due : Due} (hdue : due.IsInside) (inner : List Frame) {filled : Node → Frame}
      (h : frame.Filled filled) :
    Holds frame outer fun n => .running due (inner ++ filled n :: outer)

/-- What a step does to the stack. -/
inductive Move where
  /-- Arrays and objects are opened, and something is due. -/
  | go (due : Due) (opened : List Frame)
  /-- A value is complete. -/
  | place (n : Node)
  /-- The text goes wrong. -/
  | abandon (n : Node)

/-- The state after a step. -/
def Move.apply : Move → List Frame → State
  | .go due opened, stack => .running due (opened ++ stack)
  | .place n, stack => Document.place n stack
  | .abandon n, stack => .finished (Document.abandon n stack)

/-- What is due after a step is inside of the document. -/
def Move.IsInside : Move → Prop
  | .go due _ => due.IsInside
  | .place _ | .abandon _ => True

/-- Where a key is due, a token is one or the text goes wrong. -/
theorem step_nextKey_cases (token : Token) :
    (∃ key, ∀ done stack,
      step (.running (.nextKey done) stack) token = .running (.colon done key) stack) ∨
    ∃ fault, ∀ done stack, step (.running (.nextKey done) stack) token =
      .finished (abandon (container (.object done.reverse (.nextKeyDue fault)) stack) stack) := by
  cases token with
  | string s => exact Or.inl ⟨.text s, fun _ _ => rfl⟩
  | unpaired => exact Or.inl ⟨.unpaired, fun _ _ => rfl⟩
  | broken inString fault =>
    cases inString with
    | true => exact Or.inr ⟨fault, fun _ _ => rfl⟩
    | false => exact Or.inr ⟨.malformed, fun _ _ => rfl⟩
  | _ => exact Or.inr ⟨.malformed, fun _ _ => rfl⟩

/-- With a token, what is open around something that is due matters by its depth, but not by what is
done in it. -/
def Due.Moves (due : Due) (token : Token) (depth : Nat) : Prop :=
  ∃ move : Move, move.IsInside ∧
    ∀ stack : List Frame, stack.length = depth →
      step (.running due stack) token = move.apply stack

/-- A value that is due is opened, is complete, or is none. -/
theorem moves_value (token : Token) (depth : Nat) : Due.value.Moves token depth := by
  cases token with
  | openArray => exact ⟨.go .firstItem [], trivial, fun _ _ => rfl⟩
  | openObject => exact ⟨.go .firstKey [], trivial, fun _ _ => rfl⟩
  | null => exact ⟨.place .null, trivial, fun _ _ => rfl⟩
  | bool value => exact ⟨.place (.bool value), trivial, fun _ _ => rfl⟩
  | number text => exact ⟨.place (.number text), trivial, fun _ _ => rfl⟩
  | string value => exact ⟨.place (.string value), trivial, fun _ _ => rfl⟩
  | unpaired => exact ⟨.place .unpaired, trivial, fun _ _ => rfl⟩
  | broken inString fault => exact ⟨.abandon (.broken fault), trivial, fun _ _ => rfl⟩
  | closeArray | closeObject | comma | colon =>
    exact ⟨.abandon (.broken .malformed), trivial, fun _ _ => rfl⟩

/-- The first item of an array is a value, unless the array ends. -/
theorem moves_firstItem (token : Token) (depth : Nat) : Due.firstItem.Moves token depth := by
  cases token with
  | openArray => exact ⟨.go .firstItem [.items []], trivial, fun _ _ => rfl⟩
  | openObject => exact ⟨.go .firstKey [.items []], trivial, fun _ _ => rfl⟩
  | closeArray => exact ⟨.place (.mark depth (.array [] none)), trivial, by rintro _ rfl; rfl⟩
  | null => exact ⟨.go (.itemEnd [.null]) [], trivial, fun _ _ => rfl⟩
  | bool value => exact ⟨.go (.itemEnd [.bool value]) [], trivial, fun _ _ => rfl⟩
  | number text => exact ⟨.go (.itemEnd [.number text]) [], trivial, fun _ _ => rfl⟩
  | string value => exact ⟨.go (.itemEnd [.string value]) [], trivial, fun _ _ => rfl⟩
  | unpaired => exact ⟨.go (.itemEnd [.unpaired]) [], trivial, fun _ _ => rfl⟩
  -- A text that goes wrong in the first item leaves an array of this item.
  | broken inString fault =>
    exact ⟨.abandon (.mark depth (.array [.broken fault] none)), trivial, by rintro _ rfl; rfl⟩
  | closeObject | comma | colon =>
    exact ⟨.abandon (.mark depth (.array [.broken .malformed] none)), trivial,
      by rintro _ rfl; rfl⟩

/-- The first key of an object is a string, unless the object ends. -/
theorem moves_firstKey (token : Token) (depth : Nat) : Due.firstKey.Moves token depth := by
  cases token with
  | string s => exact ⟨.go (.colon [] (.text s)) [], trivial, fun _ _ => rfl⟩
  | unpaired => exact ⟨.go (.colon [] .unpaired) [], trivial, fun _ _ => rfl⟩
  | closeObject => exact ⟨.place (.mark depth (.object [] .closed)), trivial, by rintro _ rfl; rfl⟩
  | broken inString fault =>
    -- Only a fault inside of a string is one of the key.
    cases inString with
    | true =>
      exact ⟨.abandon (.mark depth (.object [] (.firstKeyDue fault (.broken fault)))), trivial,
        by rintro _ rfl; rfl⟩
    | false =>
      exact ⟨.abandon (.mark depth (.object [] (.firstKeyDue .malformed (.broken fault)))),
        trivial, by rintro _ rfl; rfl⟩
  | _ =>
    exact ⟨.abandon (.mark depth (.object [] (.firstKeyDue .malformed (leaf _)))), trivial,
      by rintro _ rfl; rfl⟩

/-- Inside of the document, what a step does depends on the number of arrays and objects that are
open, but not on what is done in them. -/
theorem exists_move {due : Due} (hdue : due.IsInside) (token : Token) (depth : Nat) :
    due.Moves token depth := by
  cases due with
  | nothing root => exact absurd hdue id
  | value => exact moves_value token depth
  | firstItem => exact moves_firstItem token depth
  | firstKey => exact moves_firstKey token depth
  | itemEnd done =>
    by_cases hcomma : token = .comma
    · exact ⟨.go .value [.items done], trivial, by rintro _ rfl; rw [hcomma]; rfl⟩
    by_cases hclose : token = .closeArray
    · exact ⟨.place (.mark depth (.array done.reverse none)), trivial,
        by rintro _ rfl; rw [hclose]; rfl⟩
    refine ⟨.abandon (.mark depth (.array done.reverse (some .malformed))), trivial, ?_⟩
    rintro stack rfl
    simp only [step, if_neg hcomma, if_neg hclose]
    rfl
  | nextKey done =>
    rcases step_nextKey_cases token with ⟨key, hstep⟩ | ⟨fault, hstep⟩
    · exact ⟨.go (.colon done key) [], trivial, fun stack _ => hstep done stack⟩
    · exact ⟨.abandon (.mark depth (.object done.reverse (.nextKeyDue fault))), trivial,
        by rintro stack rfl; exact hstep done stack⟩
  | colon done key =>
    by_cases hcolon : token = .colon
    · exact ⟨.go .value [.members done key], trivial, by rintro _ rfl; rw [hcolon]; rfl⟩
    refine ⟨.abandon (.mark depth
      (.object ((key, .broken .malformed) :: done).reverse .closed)), trivial, ?_⟩
    rintro stack rfl
    simp only [step, if_neg hcolon]
    rfl
  | memberEnd done =>
    by_cases hcomma : token = .comma
    · exact ⟨.go (.nextKey done) [], trivial, by rintro _ rfl; rw [hcomma]; rfl⟩
    by_cases hclose : token = .closeObject
    · exact ⟨.place (.mark depth (.object done.reverse .closed)), trivial,
        by rintro _ rfl; rw [hclose]; rfl⟩
    refine ⟨.abandon (.mark depth (.object done.reverse (.separatorDue .malformed))), trivial, ?_⟩
    rintro stack rfl
    simp only [step, if_neg hcomma, if_neg hclose]
    rfl

/-- So does what becomes of the document when the tokens end. -/
theorem exists_finish {due : Due} (hdue : due.IsInside) (depth : Nat) :
    ∃ n : Node, ∀ stack : List Frame, stack.length = depth →
      finish (.running due stack) = abandon n stack := by
  cases due with
  | nothing root => exact absurd hdue id
  | value => exact ⟨.broken .ended, fun _ _ => rfl⟩
  | firstItem => exact ⟨.mark depth (.array [] (some .ended)), by rintro _ rfl; rfl⟩
  | itemEnd done => exact ⟨.mark depth (.array done.reverse (some .ended)), by rintro _ rfl; rfl⟩
  | firstKey =>
    exact ⟨.mark depth (.object [] (.firstKeyDue .ended (.broken .ended))), by rintro _ rfl; rfl⟩
  | nextKey done =>
    exact ⟨.mark depth (.object done.reverse (.nextKeyDue .ended)), by rintro _ rfl; rfl⟩
  | colon done key =>
    exact ⟨.mark depth (.object ((key, .broken .ended) :: done).reverse .closed),
      by rintro _ rfl; rfl⟩
  | memberEnd done =>
    exact ⟨.mark depth (.object done.reverse (.separatorDue .ended)), by rintro _ rfl; rfl⟩

section Holds

variable {frame : Frame} {outer : List Frame} {filled : Node → Frame}

/-- A value that is placed behind that of a frame leaves what is done in the frame. -/
theorem Frame.Filled.place (h : frame.Filled filled) (inner : List Frame) (other : Node) :
    ∃ state, frame.Holds outer state ∧
      ∀ n, Document.place other (inner ++ filled n :: outer) = state n := by
  cases inner with
  | nil =>
    cases h with
    | items done more => exact ⟨_, .due (.itemEnd done (other :: more)), fun _ => rfl⟩
    | members done key more next =>
      exact ⟨_, .due (.memberEnd done key ((next, other) :: more)), fun _ => rfl⟩
  | cons first inner =>
    cases first with
    | items done' =>
      have hdue : (Due.itemEnd (other :: done')).IsInside := trivial
      exact ⟨_, .inside hdue inner h, fun _ => rfl⟩
    | members done' key' =>
      have hdue : (Due.memberEnd ((key', other) :: done')).IsInside := trivial
      exact ⟨_, .inside hdue inner h, fun _ => rfl⟩

/-- A text that goes wrong behind the value of a frame completes the frame. -/
theorem Frame.Filled.abandon (h : frame.Filled filled) (inner : List Frame) (other : Node) :
    ∃ wrap, frame.Wraps outer wrap ∧
      ∀ n, Document.abandon other (inner ++ filled n :: outer) =
        Document.abandon (wrap n) outer := by
  induction inner generalizing other with
  | nil =>
    cases h with
    | items done more =>
      refine ⟨_, .items done (more.reverse ++ [other]) none, fun n => ?_⟩
      simp [Document.abandon]
    | members done key more next =>
      refine ⟨_, .members done key (more.reverse ++ [(next, other)]) .closed, fun n => ?_⟩
      simp [Document.abandon]
  | cons first inner ih =>
    -- How deep the other values are does not depend on the value.
    have hcontainer (content : Node) (n : Node) :
        container content (inner ++ filled n :: outer) =
          .mark (inner.length + (outer.length + 1)) content := by
      rw [← List.length_cons, ← List.length_append]
      rfl
    cases first with
    | items done' =>
      obtain ⟨wrap, hwrap, habandon⟩ :=
        ih (.mark (inner.length + (outer.length + 1)) (.array (other :: done').reverse none))
      refine ⟨wrap, hwrap, fun n => ?_⟩
      rw [← habandon n, ← hcontainer _ n]
      rfl
    | members done' key' =>
      obtain ⟨wrap, hwrap, habandon⟩ := ih (.mark (inner.length + (outer.length + 1))
        (.object ((key', other) :: done').reverse .closed))
      refine ⟨wrap, hwrap, fun n => ?_⟩
      rw [← habandon n, ← hcontainer _ n]
      rfl

/-- Items or members that are done, with the value of a frame among them, in their order. -/
theorem reverse_append_cons {α : Type} (more : List α) (a : α) (done : List α) :
    (more ++ a :: done).reverse = done.reverse ++ a :: more.reverse := by
  simp

/-- With a token the state behind the value of a frame stays one, or the frame is completed, or the
text goes wrong. -/
def Frame.Advances (frame : Frame) (outer : List Frame) (state : Node → State) (token : Token) :
    Prop :=
  (∃ next, frame.Holds outer next ∧ ∀ n, Document.step (state n) token = next n) ∨
  ∃ wrap, frame.Wraps outer wrap ∧
    ((∀ n, Document.step (state n) token = Document.place (wrap n) outer) ∨
      ∀ n, Document.step (state n) token = .finished (Document.abandon (wrap n) outer))

/-- Behind the value, the frame goes on with a separator and ends with a bracket. -/
theorem Frame.Passed.step {due : Node → Due} (h : frame.Passed due) (token : Token) :
    frame.Advances outer (fun n => .running (due n) outer) token := by
  cases h with
  | itemEnd done more =>
    by_cases hcomma : token = .comma
    · have hdue : Due.value.IsInside := trivial
      exact Or.inl ⟨_, .inside hdue [] (.items done more), fun n => by rw [hcomma]; rfl⟩
    by_cases hclose : token = .closeArray
    · refine Or.inr ⟨_, .items done more.reverse none, Or.inl fun n => ?_⟩
      rw [hclose, ← reverse_append_cons]
      rfl
    · refine Or.inr ⟨_, .items done more.reverse (some .malformed), Or.inr fun n => ?_⟩
      simp only [Document.step, if_neg hcomma, if_neg hclose, reverse_append_cons]
  | memberEnd done key more =>
    by_cases hcomma : token = .comma
    · exact Or.inl ⟨_, .due (.nextKey done key more), fun n => by rw [hcomma]; rfl⟩
    by_cases hclose : token = .closeObject
    · refine Or.inr ⟨_, .members done key more.reverse .closed, Or.inl fun n => ?_⟩
      rw [hclose, ← reverse_append_cons]
      rfl
    · refine Or.inr ⟨_, .members done key more.reverse (.separatorDue .malformed),
        Or.inr fun n => ?_⟩
      simp only [Document.step, if_neg hcomma, if_neg hclose, reverse_append_cons]
  | nextKey done key more =>
    rcases step_nextKey_cases token with ⟨next, hstep⟩ | ⟨fault, hstep⟩
    · exact Or.inl ⟨_, .due (.colon done key more next), fun n => hstep _ outer⟩
    · refine Or.inr ⟨_, .members done key more.reverse (.nextKeyDue fault), Or.inr fun n => ?_⟩
      rw [hstep, reverse_append_cons]
  | colon done key more next =>
    by_cases hcolon : token = .colon
    · have hdue : Due.value.IsInside := trivial
      exact Or.inl ⟨_, .inside hdue [] (.members done key more next),
        fun n => by rw [hcolon]; rfl⟩
    · obtain ⟨wrap, hwrap, habandon⟩ :=
        (Frame.Filled.members done key more next).abandon [] (.broken .malformed)
      refine Or.inr ⟨wrap, hwrap, Or.inr fun n => ?_⟩
      simp only [Document.step, if_neg hcolon]
      exact congrArg State.finished (habandon n)

/-- Each token advances the state behind the value of a frame. -/
theorem Frame.Holds.step {state : Node → State} (h : frame.Holds outer state) (token : Token) :
    frame.Advances outer state token := by
  cases h with
  | due hpassed => exact hpassed.step token
  | inside hdue inner hfilled =>
    -- The frame of the value is one of those that are open, and a step depends on their number
    -- only.
    obtain ⟨move, hmove, hstep⟩ := exists_move hdue token (inner.length + (outer.length + 1))
    have hlength (n : Node) (filled : Node → Frame) :
        (inner ++ filled n :: outer).length = inner.length + (outer.length + 1) := by
      rw [List.length_append, List.length_cons]
    cases move with
    | go due opened =>
      refine Or.inl ⟨_, .inside hmove (opened ++ inner) hfilled, fun n => ?_⟩
      rw [hstep _ (hlength n _), List.append_assoc]
      rfl
    | place other =>
      obtain ⟨next, hnext, hplace⟩ := hfilled.place inner other
      exact Or.inl ⟨next, hnext, fun n => (hstep _ (hlength n _)).trans (hplace n)⟩
    | abandon other =>
      obtain ⟨wrap, hwrap, habandon⟩ := hfilled.abandon inner other
      exact Or.inr ⟨wrap, hwrap, Or.inr fun n =>
        (hstep _ (hlength n _)).trans (congrArg State.finished (habandon n))⟩

/-- When the tokens end behind the value of a frame, the frame is completed. -/
theorem Frame.Holds.finish {state : Node → State} (h : frame.Holds outer state) :
    ∃ wrap, frame.Wraps outer wrap ∧
      ∀ n, Document.finish (state n) = Document.abandon (wrap n) outer := by
  cases h with
  | inside hdue inner hfilled =>
    obtain ⟨other, hfinish⟩ := exists_finish hdue (inner.length + (outer.length + 1))
    obtain ⟨wrap, hwrap, habandon⟩ := hfilled.abandon inner other
    refine ⟨wrap, hwrap, fun n => (hfinish _ ?_).trans (habandon n)⟩
    rw [List.length_append, List.length_cons]
  | due hpassed =>
    cases hpassed with
    | itemEnd done more =>
      refine ⟨_, .items done more.reverse (some .ended), fun n => ?_⟩
      rw [← reverse_append_cons]
      rfl
    | memberEnd done key more =>
      refine ⟨_, .members done key more.reverse (.separatorDue .ended), fun n => ?_⟩
      rw [← reverse_append_cons]
      rfl
    | nextKey done key more =>
      refine ⟨_, .members done key more.reverse (.nextKeyDue .ended), fun n => ?_⟩
      rw [← reverse_append_cons]
      rfl
    | colon done key more next =>
      obtain ⟨wrap, hwrap, habandon⟩ :=
        (Frame.Filled.members done key more next).abandon [] (.broken .ended)
      exact ⟨wrap, hwrap, habandon⟩

end Holds

/-- A text that goes wrong completes all that is open around the place. -/
theorem exists_closes_abandon (stack : List Frame) :
    ∃ context, Closes stack context ∧ ∀ n, abandon n stack = ⟨context n, false⟩ := by
  induction stack with
  | nil => exact ⟨id, .nil, fun _ => rfl⟩
  | cons frame outer ih =>
    obtain ⟨context, hcontext, habandon⟩ := ih
    cases frame with
    | items done =>
      refine ⟨_, .cons (.items done [] none) hcontext, fun n => ?_⟩
      rw [Document.abandon, habandon, List.reverse_cons]
      rfl
    | members done key =>
      refine ⟨_, .cons (.members done key [] .closed) hcontext, fun n => ?_⟩
      rw [Document.abandon, habandon, List.reverse_cons]
      rfl

/-- Nothing follows the end of a document. -/
theorem foldl_step_finished (document : Document) (tokens : List Token) :
    tokens.foldl step (.finished document) = .finished document := by
  induction tokens with
  | nil => rfl
  | cons token tokens ih => exact ih

/-- Behind a state, all of the tokens close what is open around a value, which they do not depend
on. -/
def ClosedBy (stack : List Frame) (state : Node → State) (tokens : List Token) : Prop :=
  ∃ context trailing, Closes stack context ∧
    ∀ n, finish (tokens.foldl step (state n)) = ⟨context n, trailing⟩

/-- If what stands around a frame is closed whatever tokens are left, so is the frame. -/
theorem Frame.Holds.closedBy {frame : Frame} {outer : List Frame} {state : Node → State}
    (h : frame.Holds outer state) (houter : ∀ tokens, ClosedBy outer (place · outer) tokens)
    (tokens : List Token) : ClosedBy (frame :: outer) state tokens := by
  -- The induction is on the tokens up to the one that completes the frame.
  induction tokens generalizing state with
  | nil =>
    obtain ⟨wrap, hwrap, hfinish⟩ := h.finish
    obtain ⟨context, hcontext, habandon⟩ := exists_closes_abandon outer
    exact ⟨_, false, .cons hwrap hcontext, fun n => (hfinish n).trans (habandon _)⟩
  | cons token tokens ih =>
    rcases h.step token with ⟨next, hnext, hstep⟩ | ⟨wrap, hwrap, hstep | hstep⟩
    · obtain ⟨context, trailing, hcontext, hrest⟩ := ih hnext
      exact ⟨context, trailing, hcontext, fun n => by rw [List.foldl_cons, hstep, hrest]⟩
    · obtain ⟨context, trailing, hcontext, hrest⟩ := houter tokens
      exact ⟨_, trailing, .cons hwrap hcontext,
        fun n => by rw [List.foldl_cons, hstep, hrest]; rfl⟩
    · obtain ⟨context, hcontext, habandon⟩ := exists_closes_abandon outer
      exact ⟨_, false, .cons hwrap hcontext,
        fun n => by rw [List.foldl_cons, hstep, foldl_step_finished]; exact habandon _⟩

/-- What all of the tokens behind a value make of the arrays and objects around it does not depend
on the value. -/
theorem exists_closes (stack : List Frame) (tokens : List Token) :
    ClosedBy stack (place · stack) tokens := by
  induction stack generalizing tokens with
  | nil =>
    cases tokens with
    | nil => exact ⟨id, false, .nil, fun _ => rfl⟩
    | cons token tokens =>
      refine ⟨id, true, .nil, fun n => ?_⟩
      show finish (tokens.foldl step (.finished ⟨n, true⟩)) = _
      rw [foldl_step_finished]
      rfl
  | cons frame outer ih =>
    cases frame with
    | items done => exact Frame.Holds.closedBy (.due (.itemEnd done [])) ih tokens
    | members done key => exact Frame.Holds.closedBy (.due (.memberEnd done key [])) ih tokens

/-- Texts that differ in the way a value is written at a place, or in the value, have documents that
differ in the value at the place. -/
theorem exists_parse_of_leads {before behind : List Char} {stack : List Frame}
    (hbefore : Leads before stack) (hbehind : Scanner.EndsNumber behind) :
    ∃ context trailing, Closes stack context ∧
      ∀ s : Spelling, parse (String.ofList (before ++ s.text ++ behind)) =
        ⟨context (s.node.marked stack.length), trailing⟩ := by
  obtain ⟨context, trailing, hcontext, hfinish⟩ :=
    exists_closes stack (Scanner.scan .between behind)
  refine ⟨context, trailing, hcontext, fun s => ?_⟩
  rw [parse, tokens, String.toList_ofList, List.append_assoc, Scanner.scan_append, hbefore.mode,
    s.scan_text behind hbehind, ofTokens, List.foldl_append, hbefore.state, List.foldl_append,
    s.foldl_tokens stack, hfinish]

end Document

end Multibinding.Json
