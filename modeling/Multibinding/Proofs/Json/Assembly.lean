import Multibinding.Proofs.Json.Plain
import Multibinding.Proofs.Json.Scanning

/-!
# The document of a spelling

From the tokens of a value the value is assembled in its place, however it is written; arrays and
objects are marked where they are too deep to be read. Whatever the text, no part of its document
that can be read is deeper than the limit.

* `Spelling.foldl_tokens`: what is assembled from the tokens of a value;
* `Spelling.parse_text`: the document of its text;
* `Document.height_root_parse`: how deep a document is.
-/

namespace Multibinding.Json

open Document

/-- An array or object inside a number of others, which is marked if it is too deep to be read. -/
def Node.mark (depth : Nat) (content : Node) : Node :=
  if maxDepth ≤ depth then .deep content else content

mutual

/-- A value as it is assembled inside a number of arrays and objects. -/
def Node.marked (depth : Nat) : Node → Node
  | .array items unclosed => .mark depth (.array (markedItems (depth + 1) items) unclosed)
  | .object members closing => .mark depth (.object (markedMembers (depth + 1) members) closing)
  | .null => .null
  | .bool value => .bool value
  | .number text => .number text
  | .string value => .string value
  | .unpaired => .unpaired
  | .deep content => .deep content
  | .broken fault => .broken fault

/-- The items of an array as they are assembled. -/
def Node.markedItems (depth : Nat) : List Node → List Node
  | [] => []
  | n :: rest => n.marked depth :: markedItems depth rest

/-- The members of an object as they are assembled. -/
def Node.markedMembers (depth : Nat) : List (Key × Node) → List (Key × Node)
  | [] => []
  | (key, n) :: rest => (key, n.marked depth) :: markedMembers depth rest

end

namespace Node

theorem mark_of_lt {depth : Nat} (h : depth < maxDepth) (content : Node) :
    mark depth content = content :=
  if_neg (Nat.not_le.mpr h)

mutual

/-- As long as there is room, nothing is marked. -/
theorem marked_eq_self (depth : Nat) : (n : Node) → depth + n.height ≤ maxDepth →
    n.marked depth = n
  | .array items unclosed, h => by
    rw [height] at h
    rw [marked, markedItems_eq_self (depth + 1) items (by omega), mark_of_lt (by omega)]
  | .object members closing, h => by
    rw [height] at h
    rw [marked, markedMembers_eq_self (depth + 1) members (by omega), mark_of_lt (by omega)]
  | .null, _ => rfl
  | .bool _, _ => rfl
  | .number _, _ => rfl
  | .string _, _ => rfl
  | .unpaired, _ => rfl
  | .deep _, _ => rfl
  | .broken _, _ => rfl

/-- Nothing is marked in items. -/
theorem markedItems_eq_self (depth : Nat) : (items : List Node) →
    depth + heightItems items ≤ maxDepth → markedItems depth items = items
  | [], _ => rfl
  | n :: rest, h => by
    rw [heightItems] at h
    rw [markedItems, marked_eq_self depth n (by omega),
      markedItems_eq_self depth rest (by omega)]

/-- Nothing is marked in members. -/
theorem markedMembers_eq_self (depth : Nat) : (members : List (Key × Node)) →
    depth + heightMembers members ≤ maxDepth → markedMembers depth members = members
  | [], _ => rfl
  | (key, n) :: rest, h => by
    rw [heightMembers] at h
    rw [markedMembers, marked_eq_self depth n (by omega),
      markedMembers_eq_self depth rest (by omega)]

end

end Node

/-- The tokens of a value do not start with the end of an array. -/
theorem Spelling.exists_tokens_eq_cons (s : Spelling) :
    ∃ token rest, s.tokens = token :: rest ∧ token ≠ .closeArray := by
  cases s with
  | string pieces =>
    refine ⟨_, _, rfl, ?_⟩
    cases Piece.key pieces <;> simp [Key.token]
  | _ => exact ⟨_, _, rfl, by simp⟩

/-- The tokens of items do not start with the end of the array. -/
theorem ItemsSpelling.exists_tokens_eq_cons (items : ItemsSpelling) :
    ∃ token rest, items.tokens = token :: rest ∧ token ≠ .closeArray := by
  cases items with
  | last before item behind => exact item.exists_tokens_eq_cons
  | next before item behind items =>
    obtain ⟨token, rest, htokens, hne⟩ := item.exists_tokens_eq_cons
    exact ⟨token, rest ++ .comma :: items.tokens,
      by rw [ItemsSpelling.tokens, htokens, List.cons_append], hne⟩

/-- Where an item may come first, every token but the end of the array starts an item. -/
theorem Document.step_firstItem {token : Token} (h : token ≠ .closeArray) (stack : List Frame) :
    step (.running .firstItem stack) token = step (.running .value (.items [] :: stack)) token := by
  simp [step, h]

/-- A first key is taken like every other key. -/
theorem Document.step_firstKey (key : Key) (stack : List Frame) :
    step (.running .firstKey stack) key.token = .running (.colon [] key) stack := by
  cases key <;> rfl

/-- A key is taken behind the members that are done. -/
theorem Document.step_nextKey (done : List (Key × Node)) (key : Key) (stack : List Frame) :
    step (.running (.nextKey done) stack) key.token = .running (.colon done key) stack := by
  cases key <;> rfl

mutual

/-- From the tokens of a value the value is assembled, in its place. -/
theorem Spelling.foldl_tokens : (s : Spelling) → (stack : List Frame) →
    s.tokens.foldl step (.running .value stack) = place (s.node.marked stack.length) stack
  | .null, _ => rfl
  | .bool _, _ => rfl
  | .number _, _ => rfl
  | .string pieces, stack => by
    rw [Spelling.tokens, Spelling.node]
    cases Piece.key pieces <;> rfl
  | .emptyArray _, _ => rfl
  | .emptyObject _, _ => rfl
  | .array items, stack => by
    have hitems := items.foldl_tokens [] stack
    obtain ⟨token, rest, htokens, hne⟩ := items.exists_tokens_eq_cons
    rw [htokens, List.foldl_cons, ← step_firstItem hne, ← List.foldl_cons, ← htokens] at hitems
    -- Behind the last item stands the end of the array.
    rw [Spelling.tokens, List.cons_append, List.foldl_cons, List.foldl_append]
    show List.foldl step (List.foldl step (.running .firstItem stack) _) _ = _
    rw [hitems]
    show place (container (.array _ none) stack) stack = _
    rw [List.append_nil, List.reverse_reverse]
    rfl
  | .object members, stack => by
    have hmembers := members.foldl_tokens [] stack
    have hfirst : members.tokens.foldl step (.running .firstKey stack) =
        members.tokens.foldl step (.running (.nextKey []) stack) := by
      cases members <;>
        simp only [MembersSpelling.tokens, List.cons_append, List.foldl_cons, step_firstKey,
          step_nextKey]
    rw [Spelling.tokens, List.cons_append, List.foldl_cons, List.foldl_append]
    show List.foldl step (List.foldl step (.running .firstKey stack) _) _ = _
    rw [hfirst, hmembers]
    show place (container (.object _ .closed) stack) stack = _
    rw [List.append_nil, List.reverse_reverse]
    rfl

/-- From the tokens of items the items are assembled, behind those that are done. -/
theorem ItemsSpelling.foldl_tokens : (items : ItemsSpelling) → (done : List Node) →
    (stack : List Frame) →
      items.tokens.foldl step (.running .value (.items done :: stack)) =
        .running (.itemEnd ((Node.markedItems (stack.length + 1) items.nodes).reverse ++ done))
          stack
  | .last _ item _, done, stack => by
    rw [ItemsSpelling.tokens, item.foldl_tokens (.items done :: stack)]
    rfl
  | .next _ item _ items, done, stack => by
    have hrest := items.foldl_tokens (item.node.marked (stack.length + 1) :: done) stack
    rw [ItemsSpelling.tokens, List.foldl_append, item.foldl_tokens (.items done :: stack),
      List.foldl_cons]
    show List.foldl step
      (.running .value (.items (item.node.marked (stack.length + 1) :: done) :: stack)) _ = _
    rw [hrest, ItemsSpelling.nodes, Node.markedItems, List.reverse_cons, List.append_assoc,
      List.singleton_append]

/-- From the tokens of members the members are assembled, behind those that are done. -/
theorem MembersSpelling.foldl_tokens : (members : MembersSpelling) →
    (done : List (Key × Node)) → (stack : List Frame) →
      members.tokens.foldl step (.running (.nextKey done) stack) =
        .running
          (.memberEnd ((Node.markedMembers (stack.length + 1) members.nodes).reverse ++ done)) stack
  | .last _ key _ _ value _, done, stack => by
    rw [MembersSpelling.tokens, List.foldl_cons, step_nextKey, List.foldl_cons]
    show List.foldl step (.running .value (.members done (Piece.key key) :: stack)) _ = _
    rw [value.foldl_tokens (.members done (Piece.key key) :: stack)]
    rfl
  | .next _ key _ _ value _ members, done, stack => by
    have hrest := members.foldl_tokens
      ((Piece.key key, value.node.marked (stack.length + 1)) :: done) stack
    rw [MembersSpelling.tokens, List.cons_append, List.foldl_cons, step_nextKey, List.cons_append,
      List.foldl_cons, List.foldl_append]
    show List.foldl step
      (List.foldl step (.running .value (.members done (Piece.key key) :: stack)) _) _ = _
    rw [value.foldl_tokens (.members done (Piece.key key) :: stack), List.foldl_cons]
    show List.foldl step (.running (.nextKey
      ((Piece.key key, value.node.marked (stack.length + 1)) :: done)) stack) _ = _
    rw [hrest, MembersSpelling.nodes, Node.markedMembers, List.reverse_cons, List.append_assoc,
      List.singleton_append]

end

/-- The document of the text of a value holds the value, if there is room for it. -/
theorem Spelling.parse_text (s : Spelling) (h : s.node.height ≤ maxDepth) :
    parse (String.ofList s.text) = ⟨s.node, false⟩ := by
  have hscan := s.scan_text [] Scanner.endsNumber_nil
  have htokens : Json.tokens (String.ofList s.text) = s.tokens := by
    rw [Json.tokens, String.toList_ofList]
    simpa [Scanner.scan, Scanner.finish] using hscan
  rw [parse, htokens, ofTokens, s.foldl_tokens [],
    Node.marked_eq_self _ s.node (by simpa using h)]
  rfl

namespace Document

/-- How high a value may be inside a number of arrays and objects. -/
def room (depth : Nat) : Nat :=
  maxDepth - depth

/-- An array or object has room for what it holds, or it is too deep. -/
theorem height_container_le {content : Node} {stack : List Frame}
    (h : content.height ≤ room (stack.length + 1) + 1) :
    (container content stack).height ≤ room stack.length := by
  rw [container]
  split
  · exact Nat.zero_le _
  · unfold room at *
    omega

/-- The values that have been assembled in a frame. -/
def Frame.nodes : Frame → List Node
  | .items done => done
  | .members done _ => done.map (·.2)

/-- No value in the frames is higher than there is room for. -/
def FramesFit : List Frame → Prop
  | [] => True
  | frame :: stack =>
    (∀ n ∈ frame.nodes, n.height ≤ room (stack.length + 1)) ∧ FramesFit stack

/-- The values that have been assembled where something is due. -/
def Due.nodes : Due → List Node
  | .itemEnd done => done
  | .nextKey done | .colon done _ | .memberEnd done => done.map (·.2)
  | .value | .firstItem | .firstKey | .nothing _ => []

/-- No value in a state of the assembly is higher than there is room for. -/
def State.Fits : State → Prop
  | .running (.nothing root) _ => root.height ≤ maxDepth
  | .running due stack => (∀ n ∈ due.nodes, n.height ≤ room (stack.length + 1)) ∧ FramesFit stack
  | .finished document => document.root.height ≤ maxDepth

/-- An array that holds what there is room for. -/
theorem height_array_le {items : List Node} {unclosed : Option Defect} {h : Nat}
    (hitems : ∀ n ∈ items, n.height ≤ h) : (Node.array items.reverse unclosed).height ≤ h + 1 := by
  rw [Node.height, Nat.succ_le_succ_iff, Node.heightItems_le_iff]
  exact fun n hn => hitems n (List.mem_reverse.mp hn)

/-- An object that holds what there is room for. -/
theorem height_object_le {members : List (Key × Node)} {closing : Closing Node} {h : Nat}
    (hmembers : ∀ n ∈ members.map (·.2), n.height ≤ h) :
    (Node.object members.reverse closing).height ≤ h + 1 := by
  rw [Node.height, Nat.succ_le_succ_iff, Node.heightMembers_le_iff]
  exact fun m hm => List.forall_mem_map.mp hmembers m (List.mem_reverse.mp hm)

variable {stack : List Frame}

/-- A value for which there is room can be put in its place. -/
theorem fits_place {n : Node} (hn : n.height ≤ room stack.length) (hstack : FramesFit stack) :
    (place n stack).Fits := by
  cases stack with
  | nil => exact hn
  | cons frame stack =>
    obtain ⟨hframe, hstack⟩ := hstack
    cases frame with
    | items done => exact ⟨List.forall_mem_cons.mpr ⟨hn, hframe⟩, hstack⟩
    | members done key => exact ⟨List.forall_mem_cons.mpr ⟨hn, hframe⟩, hstack⟩

/-- A document may end with a value for which there is room. -/
theorem fits_abandon {n : Node} (hn : n.height ≤ room stack.length) (hstack : FramesFit stack) :
    (State.finished (abandon n stack)).Fits := by
  induction stack generalizing n with
  | nil => exact hn
  | cons frame stack ih =>
    obtain ⟨hframe, hstack⟩ := hstack
    cases frame with
    | items done =>
      exact ih (height_container_le (height_array_le (List.forall_mem_cons.mpr ⟨hn, hframe⟩)))
        hstack
    | members done key =>
      exact ih (height_container_le (height_object_le (List.forall_mem_cons.mpr ⟨hn, hframe⟩)))
        hstack

/-- Where a value is due, every token leaves a state in which all values fit. -/
theorem fits_takeValue (token : Token) (hstack : FramesFit stack) :
    (takeValue token stack).Fits := by
  have hleaf {n : Node} (hn : n.height = 0) : n.height ≤ room stack.length :=
    hn ▸ Nat.zero_le _
  cases token <;>
    first
    | exact fits_place (hleaf rfl) hstack
    | exact fits_abandon (hleaf rfl) hstack
    | exact ⟨by simp [Due.nodes], hstack⟩

/-- An array with items that fit can be put in its place. -/
theorem height_container_array_le (items : List Node) {unclosed : Option Defect}
    (hitems : ∀ n ∈ items, n.height ≤ room (stack.length + 1)) :
    (container (.array items.reverse unclosed) stack).height ≤ room stack.length :=
  height_container_le (height_array_le hitems)

/-- An object with members that fit can be put in its place. -/
theorem height_container_object_le (members : List (Key × Node)) {closing : Closing Node}
    (hmembers : ∀ n ∈ members.map (·.2), n.height ≤ room (stack.length + 1)) :
    (container (.object members.reverse closing) stack).height ≤ room stack.length :=
  height_container_le (height_object_le hmembers)

/-- Every step keeps all values within the room that there is for them. -/
theorem fits_step {state : State} (h : state.Fits) (token : Token) : (step state token).Fits := by
  cases state with
  | finished document => exact h
  | running due stack =>
    -- A step keeps what is done, opens a frame for it, or completes a frame, which has room one
    -- level further out.
    cases due with
    | value => exact fits_takeValue token h.2
    | nothing root => exact h
    | firstItem =>
      simp only [step]
      split
      · exact fits_place (height_container_array_le [] (by simp)) h.2
      · exact fits_takeValue token ⟨by simp [Frame.nodes], h.2⟩
    | itemEnd done =>
      obtain ⟨hdone, hstack⟩ := h
      simp only [step]
      split
      · exact ⟨by simp [Due.nodes], hdone, hstack⟩
      · split
        · exact fits_place (height_container_array_le done hdone) hstack
        · exact fits_abandon (height_container_array_le done hdone) hstack
    | firstKey =>
      have hempty {closing : Closing Node} :
          (container (.object [] closing) stack).height ≤ room stack.length :=
        height_container_object_le [] (by simp)
      simp only [step]
      split
      · exact ⟨by simp [Due.nodes], h.2⟩
      · exact ⟨by simp [Due.nodes], h.2⟩
      · exact fits_place hempty h.2
      · exact fits_abandon hempty h.2
      · exact fits_abandon hempty h.2
    | nextKey done =>
      obtain ⟨hdone, hstack⟩ := h
      simp only [step]
      split
      · exact ⟨hdone, hstack⟩
      · exact ⟨hdone, hstack⟩
      · exact fits_abandon (height_container_object_le done hdone) hstack
      · exact fits_abandon (height_container_object_le done hdone) hstack
    | colon done key =>
      have hframes : FramesFit (.members done key :: stack) := h
      simp only [step]
      split
      · exact ⟨by simp [Due.nodes], hframes⟩
      · exact fits_abandon (Nat.zero_le _) hframes
    | memberEnd done =>
      obtain ⟨hdone, hstack⟩ := h
      simp only [step]
      split
      · exact ⟨hdone, hstack⟩
      · split
        · exact fits_place (height_container_object_le done hdone) hstack
        · exact fits_abandon (height_container_object_le done hdone) hstack

/-- So does the end of the tokens. -/
theorem height_root_finish {state : State} (h : state.Fits) :
    (finish state).root.height ≤ maxDepth := by
  cases state with
  | finished document => exact h
  | running due stack =>
    cases due with
    | value => exact fits_abandon (Nat.zero_le _) h.2
    | nothing root => exact h
    | firstItem => exact fits_abandon (height_container_array_le [] (by simp)) h.2
    | itemEnd done => exact fits_abandon (height_container_array_le done h.1) h.2
    | firstKey => exact fits_abandon (height_container_object_le [] (by simp)) h.2
    | nextKey done => exact fits_abandon (height_container_object_le done h.1) h.2
    | colon done key =>
      have hframes : FramesFit (.members done key :: stack) := h
      exact fits_abandon (Nat.zero_le _) hframes
    | memberEnd done => exact fits_abandon (height_container_object_le done h.1) h.2

/-- No part of a document that can be read is deeper than the limit. -/
theorem height_root_parse (s : String) : (parse s).root.height ≤ maxDepth := by
  have hfold : ∀ (tokens : List Token) (state : State), state.Fits →
      (tokens.foldl step state).Fits := by
    intro tokens
    induction tokens with
    | nil => exact fun state h => h
    | cons token rest ih => exact fun state h => ih _ (fits_step h token)
  exact height_root_finish (hfold _ _ ⟨by simp [Due.nodes], trivial⟩)

end Document

end Multibinding.Json
