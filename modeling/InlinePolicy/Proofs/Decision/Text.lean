import Mathlib
import InlinePolicy.Decision.Text
import InlinePolicy.Proofs.Policy.Rules

/-!
# The text of a decision

The text of a context can be read back by whoever knows its punctuation: commas end items, blanks
end words, and the first word of an item is a label and a number (`readNumbers`).  For the decisions
that the policy makes, this finds each number of the context once, in a fixed order, and the
relation between a size and its bound is the one that the verdict rests on (`text_toldBy`).
-/

namespace InlinePolicy

/-! ## Numbers of a context -/

namespace Context

/-- The numbers that a context may hold. -/
inductive Field where
  | previousSize
  | invokeProbability
  | relevance
  | probability
  | bonus
  | nodes
  | maximumNodes
  | graphNodes
  | maximumDesiredSize
deriving DecidableEq

/-- The relation between a size and its bound, by the verdict that rests on it. -/
def relation (accepted : Bool) : String := if accepted then "<=" else ">"

namespace Field

/-- The fields in the order of the text. -/
def inOrder : List Field :=
  [.previousSize, .invokeProbability, .relevance, .probability, .bonus, .nodes, .maximumNodes,
    .graphNodes, .maximumDesiredSize]

theorem mem_inOrder (field : Field) : field ∈ inOrder := by cases field <;> decide

/-- What stands in front of a number: a label, or the relation that the number is a bound in. -/
def mark (accepted : Bool) : Field → String
  | .previousSize => "low-level-nodes"
  | .invokeProbability => "invokeP"
  | .relevance => "relevance"
  | .probability => "probability"
  | .bonus => "bonus"
  | .nodes => "nodes"
  | .maximumNodes => relation accepted
  | .graphNodes => "graph-nodes"
  | .maximumDesiredSize => ">="

theorem nodup_marks (accepted : Bool) :
    (inOrder.map fun field => (field.mark accepted).toList).Nodup := by
  cases accepted <;> decide

theorem mark_ne_nil (accepted : Bool) (field : Field) : (field.mark accepted).toList ≠ [] := by
  cases accepted <;> cases field <;> decide

end Field

/-- The text of the number in a field. -/
def number? (c : Context) : Field → Option String
  | .previousSize => c.previousSize.map toString
  | .invokeProbability => c.invokeProbability.map floatText
  | .relevance => c.relevance.map floatText
  | .probability => c.probability.map floatText
  | .bonus => c.bonus.map floatText
  | .nodes => c.nodes.map toString
  | .maximumNodes => c.maximumNodes.map floatText
  | .graphNodes => c.graphNodes.map toString
  | .maximumDesiredSize => c.maximumDesiredSize.map toString

theorem eq_empty_iff (c : Context) : c = {} ↔ ∀ field, c.number? field = none := by
  constructor
  · rintro rfl field
    cases field <;> rfl
  · intro none
    have absent := And.intro (none .relevance) <| And.intro (none .probability) <|
      And.intro (none .bonus) <| And.intro (none .nodes) <| And.intro (none .previousSize) <|
      And.intro (none .invokeProbability) <| And.intro (none .maximumNodes) <|
      And.intro (none .graphNodes) (none .maximumDesiredSize)
    cases c
    simpa [number?] using absent

/-! ## Reading -/

/-- A number in a text, with what stands in front of it. -/
structure Shown where
  mark : List Char
  digits : List Char
deriving DecidableEq

/-- The numbers after the first word of an item, each with a word of its own in front. -/
def readPairs : List (List Char) → List Shown
  | mark :: digits :: words => ⟨mark, digits⟩ :: readPairs words
  | [mark] => [⟨mark, []⟩]
  | [] => []

/-- The numbers in an item.  Its first word is a label and a number with `=` between them. -/
def readItem (item : List Char) : List Shown :=
  match (item.dropWhile (· = ' ')).splitOn ' ' with
  | word :: words =>
    ⟨word.takeWhile (· ≠ '='), (word.dropWhile (· ≠ '=')).tail⟩ :: readPairs words
  | [] => []

/-- The numbers in a text. -/
def readNumbers (text : String) : List Shown := (text.toList.splitOn ',').flatMap readItem

/-- The number in a field, with its mark. -/
def shownIn? (c : Context) (accepted : Bool) (field : Field) : Option Shown :=
  (c.number? field).map fun number => ⟨(field.mark accepted).toList, number.toList⟩

/-- The numbers of a context that are present, in order. -/
def shown (c : Context) (accepted : Bool) : List Shown :=
  Field.inOrder.filterMap (c.shownIn? accepted)

theorem mark_of_shownIn? {c : Context} {accepted : Bool} {field : Field} {number : Shown}
    (h : c.shownIn? accepted field = some number) : number.mark = (field.mark accepted).toList := by
  obtain ⟨_, -, rfl⟩ := Option.map_eq_some_iff.1 h
  rfl

/-- No field is shown twice. -/
theorem nodup_marks_shown (c : Context) (accepted : Bool) :
    ((c.shown accepted).map Shown.mark).Nodup := by
  have sublist (fields : List Field) :
      ((fields.filterMap (c.shownIn? accepted)).map Shown.mark).Sublist
        (fields.map fun field => (field.mark accepted).toList) := by
    induction fields with
    | nil => exact .slnil
    | cons field fields ih =>
      cases h : c.shownIn? accepted field with
      | none =>
        rw [List.filterMap_cons_none h]
        exact ih.cons _
      | some number =>
        rw [List.filterMap_cons_some h, List.map_cons, mark_of_shownIn? h]
        exact ih.cons_cons _
  exact (Field.nodup_marks accepted).sublist (sublist Field.inOrder)

/-- Some number is shown if any is present. -/
theorem shown_eq_nil_iff (c : Context) (accepted : Bool) :
    c.shown accepted = [] ↔ ∀ field, c.number? field = none := by
  simp [shown, shownIn?, Field.mem_inOrder]

end Context

/-! ## The decisions of the policy -/

/-- The decisions that the policy makes about calls and units. -/
inductive Decision.Returned : Decision → Prop where
  | evaluate (policy : Policy) (config : Config) (invocation : Invocation) (fullyProcessed : Bool) :
      Returned (policy.evaluate config invocation fullyProcessed)
  | checkBudget {config : Config} {graphNodes : UInt64} {decision : Decision}
      (stopped : config.checkBudget graphNodes = some decision) : Returned decision

/-- The numbers of a decision fit together and its verdict. -/
structure Decision.Coherent (d : Decision) : Prop where
  /-- A bound comes with the size that it bounds, and the verdict compares them. -/
  bound : ∀ maximum, d.context.maximumNodes = some maximum →
    ∃ nodes, d.context.nodes = some nodes ∧ d.accepted = decide (nodes.toFloat ≤ maximum)
  /-- The size of the caller's graph comes with the limit that it has reached. -/
  graph : ∀ size, d.context.graphNodes = some size →
    ∃ limit, d.context.maximumDesiredSize = some limit ∧ limit ≤ size
  limit : d.context.maximumDesiredSize.isSome → d.context.graphNodes.isSome
  relevanceBased : d.reason = .relevanceBased → d.context.maximumNodes.isSome

theorem Decision.Returned.coherent {d : Decision} (returned : d.Returned) : d.Coherent := by
  cases returned with
  | evaluate policy config invocation fullyProcessed =>
    obtain ⟨reason, settles⟩ := @Policy.exists_settles policy config invocation fullyProcessed
    rw [Policy.evaluate_of_settles settles]
    cases reason with
    | relevanceBased =>
      refine ⟨fun maximum bounded => ?_, fun _ sized => ?_, fun limited => ?_, fun _ => rfl⟩
      · obtain rfl := Option.some.inj bounded
        exact ⟨_, rfl, rfl⟩
      · cases sized
      · cases limited
    | _ => constructor <;> simp [Policy.verdict, Policy.evidence, Policy.context]
  | @checkBudget config graphNodes _ stopped =>
    unfold Config.checkBudget at stopped
    split_ifs at stopped with full
    cases stopped
    constructor <;> simp [full]

/-! ## Joined texts -/

theorem mem_of_mem_intercalate {c : Char} {separator : List Char} {parts : List (List Char)}
    (h : c ∈ separator.intercalate parts) : c ∈ separator ∨ ∃ part ∈ parts, c ∈ part := by
  induction parts with
  | nil => exact absurd h List.not_mem_nil
  | cons part parts ih =>
    cases parts with
    | nil => exact .inr ⟨part, List.mem_cons_self, by simpa using h⟩
    | cons next parts =>
      rw [List.intercalate_cons_cons, List.append_assoc, List.mem_append, List.mem_append] at h
      rcases h with here | separating | later
      · exact .inr ⟨part, List.mem_cons_self, here⟩
      · exact .inl separating
      · obtain separating | ⟨other, mem, inside⟩ := ih later
        · exact .inl separating
        · exact .inr ⟨other, List.mem_cons_of_mem _ mem, inside⟩

/-- A separator of two characters is one of its first character, with the second one in front of
all parts but the first. -/
theorem intercalate_pair (x y : Char) (part : List Char) (parts : List (List Char)) :
    [x, y].intercalate (part :: parts) = [x].intercalate (part :: parts.map (y :: ·)) := by
  induction parts generalizing part with
  | nil => rfl
  | cons next parts ih =>
    have moved : [x].intercalate ((y :: next) :: parts.map (y :: ·)) =
        y :: [x].intercalate (next :: parts.map (y :: ·)) := by
      cases parts <;> simp [List.intercalate_cons_cons]
    rw [List.intercalate_cons_cons, ih, List.map_cons, List.intercalate_cons_cons, moved]
    simp

/-! ## Texts of numbers -/

/-- Characters without a comma or a blank to break them up. -/
def Unbroken (text : List Char) : Prop := ∀ c ∈ text, c ≠ ',' ∧ c ≠ ' '

instance (text : List Char) : Decidable (Unbroken text) :=
  List.decidableBAll (fun c => c ≠ ',' ∧ c ≠ ' ') text

theorem unbroken_digitChars (n : ℕ) : Unbroken (Decimal.digitChars n) := by
  intro c mem
  have digit := Decimal.isDigit_of_mem_digitChars mem
  constructor
  · rintro rfl
    exact absurd digit (by decide)
  · rintro rfl
    exact absurd digit (by decide)

theorem unbroken_toString (n : UInt64) : Unbroken (toString n).toList := by
  have digits : (toString n).toList = Decimal.digitChars n.toNat := Nat.toList_repr
  rw [digits]
  exact unbroken_digitChars n.toNat

theorem unbroken_signed {text : List Char} (negative : Bool) (unbroken : Unbroken text) :
    Unbroken (Decimal.signed negative text) := by
  unfold Decimal.signed
  split_ifs
  · exact List.forall_mem_cons.2 ⟨by decide, unbroken⟩
  · exact unbroken

theorem unbroken_writeScaled (places n : ℕ) : Unbroken (Decimal.writeScaled places n) := by
  intro c mem
  simp only [Decimal.writeScaled, List.mem_append, List.mem_cons] at mem
  have padded (h : c ∈ List.replicate (places + 1 - (Decimal.digitChars n).length) '0' ++
      Decimal.digitChars n) : c ≠ ',' ∧ c ≠ ' ' := by
    rcases List.mem_append.1 h with zero | digit
    · rw [List.eq_of_mem_replicate zero]
      decide
    · exact unbroken_digitChars n c digit
  rcases mem with whole | rfl | fraction
  · exact padded (List.mem_of_mem_take whole)
  · decide
  · exact padded (List.mem_of_mem_drop fraction)

/-- Also infinities and what is no number are written as one word. -/
theorem unbroken_floatText (x : Float) : Unbroken (Context.floatText x).toList := by
  rw [Context.floatText, Decimal.fixed, String.toList_ofList]
  split
  · decide
  · exact unbroken_signed _ (by decide)
  · exact unbroken_signed _ (unbroken_writeScaled 6 0)
  · exact unbroken_signed _ (unbroken_writeScaled 6 _)

/-! ## The items of a text -/

namespace Context

/-- An item of a context's text: a number with its label, and the bounds on it with a relation
each. -/
structure Item where
  label : String
  value : String
  bounds : List (String × String) := []

namespace Item

/-- The words of an item. -/
def words (item : Item) : List String :=
  (item.label ++ "=" ++ item.value) :: item.bounds.flatMap fun (relation, bound) =>
    [relation, bound]

/-- The text of an item. -/
def text (item : Item) : String := " ".intercalate item.words

/-- The numbers of an item. -/
def shown (item : Item) : List Shown :=
  ⟨item.label.toList, item.value.toList⟩ :: item.bounds.map fun (relation, bound) =>
    ⟨relation.toList, bound.toList⟩

/-- The words of an item are unbroken, and its label ends where the number starts. -/
structure Readable (item : Item) : Prop where
  words : ∀ word ∈ item.words, Unbroken word.toList
  label : '=' ∉ item.label.toList

theorem text_unbounded (label value : String) :
    (Item.mk label value []).text = label ++ "=" ++ value :=
  rfl

theorem text_bounded (label value relation bound : String) :
    (Item.mk label value [(relation, bound)]).text =
      label ++ "=" ++ value ++ (" " ++ relation ++ " ") ++ bound := by
  change label ++ "=" ++ value ++ " " ++ relation ++ " " ++ bound = _
  simp only [String.append_assoc]

theorem readPairs_bounds (bounds : List (String × String)) :
    readPairs ((bounds.flatMap fun (relation, bound) => [relation, bound]).map String.toList) =
      bounds.map fun (relation, bound) => ⟨relation.toList, bound.toList⟩ := by
  induction bounds with
  | nil => rfl
  | cons bound bounds ih => exact congrArg (List.cons _) ih

/-- The words of an item are separated by single blanks. -/
theorem splitOn_text {item : Item} (readable : item.Readable) :
    item.text.toList.splitOn ' ' = item.words.map String.toList := by
  rw [text, String.toList_intercalate]
  refine List.splitOn_intercalate ' ' ?_ (by simp [words])
  intro chars listed blank
  obtain ⟨word, mem, rfl⟩ := List.mem_map.1 listed
  exact (readable.words word mem ' ' blank).2 rfl

/-- The text of an item starts with its label. -/
theorem exists_text_eq (item : Item) :
    ∃ rest, item.text.toList = item.label.toList ++ '=' :: rest := by
  rw [text, String.toList_intercalate, words, List.map_cons]
  cases (item.bounds.flatMap fun (relation, bound) => [relation, bound]).map String.toList with
  | nil => exact ⟨item.value.toList, by simp⟩
  | cons word words => exact ⟨_, by simp [List.intercalate_cons_cons]; rfl⟩

theorem dropWhile_text {item : Item} (readable : item.Readable) :
    item.text.toList.dropWhile (· = ' ') = item.text.toList := by
  obtain ⟨rest, text_eq⟩ := item.exists_text_eq
  have first := readable.words _ (List.mem_cons_self)
  rw [text_eq]
  cases label : item.label.toList with
  | nil => rfl
  | cons c cs =>
    have : c ≠ ' ' := (first c (by simp [label])).2
    simp [this]

theorem readItem_text {item : Item} (readable : item.Readable) :
    readItem item.text.toList = item.shown := by
  have label : ∀ c ∈ item.label.toList, decide (c ≠ '=') = true := fun c mem =>
    decide_eq_true (ne_of_mem_of_not_mem mem readable.label)
  have first : (item.label ++ "=" ++ item.value).toList =
      item.label.toList ++ '=' :: item.value.toList := by simp
  rw [readItem, dropWhile_text readable, splitOn_text readable, words, List.map_cons, first]
  simp only [List.takeWhile_append_of_pos label, List.dropWhile_append_of_pos label,
    readPairs_bounds]
  simp [shown]

theorem comma_not_mem_text {item : Item} (readable : item.Readable) : ',' ∉ item.text.toList := by
  rw [text, String.toList_intercalate]
  intro mem
  rcases mem_of_mem_intercalate mem with blank | ⟨chars, listed, mem⟩
  · exact absurd blank (by decide)
  · obtain ⟨word, mem', rfl⟩ := List.mem_map.1 listed
    exact (readable.words word mem' ',' mem).1 rfl

end Item

/-- The item of a number without bounds, if it is present. -/
def Item.alone? {α : Type} (label : String) (write : α → String) (o : Option α) : Option Item :=
  o.map fun x => { label, value := write x }

/-- The item about the size of the callee. -/
def nodesItem? (c : Context) (relation : String) : Option Item :=
  c.nodes.map fun nodes =>
    { label := "nodes"
      value := toString nodes
      bounds := (c.maximumNodes.map fun maximum => (relation, floatText maximum)).toList }

/-- The item about the size of the caller's graph. -/
def graphItem? (c : Context) : Option Item :=
  c.graphNodes.bind fun nodes => c.maximumDesiredSize.map fun limit =>
    { label := "graph-nodes", value := toString nodes, bounds := [(">=", toString limit)] }

/-- The items of a context, with the relation of a size to its bound. -/
def items (c : Context) (relation : String) : List Item :=
  let slots : List (Option Item) :=
    [Item.alone? "low-level-nodes" toString c.previousSize,
      Item.alone? "invokeP" floatText c.invokeProbability,
      Item.alone? "relevance" floatText c.relevance,
      Item.alone? "probability" floatText c.probability,
      Item.alone? "bonus" floatText c.bonus,
      c.nodesItem? relation,
      c.graphItem?]
  slots.reduceOption

theorem Item.readable_mk {label value : String} {bounds : List (String × String)}
    (label_unbroken : Unbroken label.toList) (label_ends : '=' ∉ label.toList)
    (value_unbroken : Unbroken value.toList)
    (bounds_unbroken : ∀ bound ∈ bounds, Unbroken bound.1.toList ∧ Unbroken bound.2.toList) :
    (Item.mk label value bounds).Readable := by
  refine ⟨?_, label_ends⟩
  rintro word (_ | ⟨_, later⟩)
  · have equals : Unbroken "=".toList := by decide
    rw [String.toList_append, String.toList_append]
    exact List.forall_mem_append.2
      ⟨List.forall_mem_append.2 ⟨label_unbroken, equals⟩, value_unbroken⟩
  · obtain ⟨bound, mem, word⟩ := List.mem_flatMap.1 later
    rcases word with _ | ⟨_, _ | ⟨_, ⟨⟩⟩⟩
    · exact (bounds_unbroken bound mem).1
    · exact (bounds_unbroken bound mem).2

theorem Item.readable_alone? {α : Type} {o : Option α} {label : String} {write : α → String}
    {item : Item} (mem : some item = alone? label write o) (label_unbroken : Unbroken label.toList)
    (label_ends : '=' ∉ label.toList) (value_unbroken : ∀ x, Unbroken (write x).toList) :
    item.Readable := by
  obtain ⟨x, -, rfl⟩ := Option.map_eq_some_iff.1 mem.symm
  exact readable_mk label_unbroken label_ends (value_unbroken x) (List.forall_mem_nil _)

theorem unbroken_relation (accepted : Bool) : Unbroken (relation accepted).toList := by
  cases accepted <;> decide

theorem readable_items (c : Context) (accepted : Bool) :
    ∀ item ∈ c.items (relation accepted), item.Readable := by
  intro item mem
  simp only [items, List.reduceOption_mem_iff, List.mem_cons, List.not_mem_nil, or_false] at mem
  rcases mem with mem | mem | mem | mem | mem | mem | mem
  · exact Item.readable_alone? mem (by decide) (by decide) unbroken_toString
  · exact Item.readable_alone? mem (by decide) (by decide) unbroken_floatText
  · exact Item.readable_alone? mem (by decide) (by decide) unbroken_floatText
  · exact Item.readable_alone? mem (by decide) (by decide) unbroken_floatText
  · exact Item.readable_alone? mem (by decide) (by decide) unbroken_floatText
  · obtain ⟨nodes, -, rfl⟩ := Option.map_eq_some_iff.1 mem.symm
    refine Item.readable_mk (by decide) (by decide) (unbroken_toString nodes) fun bound listed => ?_
    obtain ⟨maximum, -, rfl⟩ := Option.map_eq_some_iff.1 (Option.mem_toList.1 listed)
    exact ⟨unbroken_relation accepted, unbroken_floatText maximum⟩
  · obtain ⟨nodes, -, limited⟩ := Option.bind_eq_some_iff.1 mem.symm
    obtain ⟨limit, -, rfl⟩ := Option.map_eq_some_iff.1 limited
    refine Item.readable_mk (by decide) (by decide) (unbroken_toString nodes) fun bound listed => ?_
    obtain rfl := List.mem_singleton.1 listed
    exact ⟨(by decide : Unbroken ">=".toList), unbroken_toString limit⟩

theorem readItem_blank_cons (item : List Char) : readItem (' ' :: item) = readItem item := by
  simp [readItem]

/-- The items of a text are read one by one. -/
theorem readNumbers_intercalate {items : List Item} (ne : items ≠ [])
    (readable : ∀ item ∈ items, item.Readable) :
    readNumbers (", ".intercalate (items.map Item.text)) = items.flatMap Item.shown := by
  obtain ⟨first, rest, rfl⟩ := List.exists_cons_of_ne_nil ne
  let later := rest.map fun item => ' ' :: item.text.toList
  have text : (", ".intercalate ((first :: rest).map Item.text)).toList =
      [','].intercalate (first.text.toList :: later) := by
    rw [String.toList_intercalate, List.map_map]
    exact (intercalate_pair ..).trans (by rw [List.map_map]; rfl)
  have split : (", ".intercalate ((first :: rest).map Item.text)).toList.splitOn ',' =
      first.text.toList :: later := by
    rw [text]
    refine List.splitOn_intercalate ',' ?_ (List.cons_ne_nil _ _)
    rintro chars (_ | ⟨_, listed⟩)
    · exact Item.comma_not_mem_text (readable first List.mem_cons_self)
    · obtain ⟨item, mem, rfl⟩ := List.mem_map.1 listed
      have unbroken := Item.comma_not_mem_text (readable item (List.mem_cons_of_mem _ mem))
      simpa using unbroken
  have read (item : Item) (mem : item ∈ first :: rest) : readItem item.text.toList = item.shown :=
    Item.readItem_text (readable item mem)
  rw [readNumbers, split, List.flatMap_cons, List.flatMap_cons, List.flatMap_map,
    read first List.mem_cons_self]
  refine congrArg _ (List.flatMap_congr fun item mem => ?_)
  rw [readItem_blank_cons, read item (List.mem_cons_of_mem _ mem)]

end Context

namespace Decision.Coherent

open Context

variable {d : Decision}

theorem map_text_nodesItem? (coherent : d.Coherent) :
    (d.context.nodesItem? (relation d.accepted)).map Item.text =
      d.context.nodes.map fun nodes => nodesText nodes d.context.maximumNodes := by
  rw [nodesItem?, Option.map_map]
  cases sized : d.context.nodes with
  | none => rfl
  | some nodes =>
    refine congrArg some ?_
    cases bounded : d.context.maximumNodes with
    | none => rfl
    | some maximum =>
      obtain ⟨_, sized', verdict⟩ := coherent.bound maximum bounded
      obtain rfl := Option.some.inj (sized.symm.trans sized')
      have relation : (if nodes.toFloat ≤ maximum then "<=" else ">") = relation d.accepted := by
        rw [verdict]
        simp [relation]
      simp only [Function.comp_apply, nodesText, relation]
      rfl

/-- The parts of the text are the items of the context, as the relation is the one that the verdict
rests on. -/
theorem parts_eq (coherent : d.Coherent) :
    d.context.parts = (d.context.items (relation d.accepted)).map Item.text := by
  rw [parts, items, ← List.reduceOption_map, List.map_cons]
  simp only [List.map_cons, List.map_nil, coherent.map_text_nodesItem?, graphItem?, Item.alone?,
    Option.map_map, Option.map_bind, Function.comp_def, Item.text_unbounded, Item.text_bounded,
    String.reduceAppend]
  rfl

theorem flatMap_shown_alone? {α : Type} (o : Option α) (label : String) (write : α → String) :
    (Item.alone? label write o).toList.flatMap Item.shown =
      ((o.map write).map fun number => Shown.mk label.toList number.toList).toList := by
  cases o <;> rfl

theorem flatMap_shown_nodesItem? (coherent : d.Coherent) :
    (d.context.nodesItem? (relation d.accepted)).toList.flatMap Item.shown =
      (d.context.shownIn? d.accepted .nodes).toList ++
        (d.context.shownIn? d.accepted .maximumNodes).toList := by
  unfold nodesItem? shownIn? number?
  cases bounded : d.context.maximumNodes with
  | none => cases d.context.nodes <;> rfl
  | some maximum =>
    obtain ⟨nodes, sized, -⟩ := coherent.bound maximum bounded
    rw [sized]
    rfl

theorem flatMap_shown_graphItem? (coherent : d.Coherent) :
    d.context.graphItem?.toList.flatMap Item.shown =
      (d.context.shownIn? d.accepted .graphNodes).toList ++
        (d.context.shownIn? d.accepted .maximumDesiredSize).toList := by
  unfold graphItem? shownIn? number?
  cases sized : d.context.graphNodes with
  | none =>
    cases limited : d.context.maximumDesiredSize with
    | none => rfl
    | some limit =>
      have := coherent.limit (by simp [limited])
      simp [sized] at this
  | some size =>
    obtain ⟨limit, limited, -⟩ := coherent.graph size sized
    rw [limited]
    rfl

/-- The items of a context show each number that is present. -/
theorem flatMap_shown_items (coherent : d.Coherent) :
    (d.context.items (relation d.accepted)).flatMap Item.shown = d.context.shown d.accepted := by
  rw [items, List.reduceOption, Context.shown, List.filterMap_eq_flatMap_toList,
    List.filterMap_eq_flatMap_toList, List.flatMap_assoc]
  simp only [Field.inOrder, List.flatMap_cons, List.flatMap_nil, id, flatMap_shown_alone?,
    coherent.flatMap_shown_nodesItem?, coherent.flatMap_shown_graphItem?, List.append_assoc]
  rfl

/-- The text of a context that has a number is not empty, and reading it gives the numbers. -/
theorem readNumbers_text (coherent : d.Coherent)
    (present : ∃ field, d.context.number? field ≠ none) :
    d.context.text ≠ "" ∧ readNumbers d.context.text = d.context.shown d.accepted := by
  have shown := coherent.flatMap_shown_items
  have some_item : d.context.items (relation d.accepted) ≠ [] := by
    intro empty
    obtain ⟨field, some⟩ := present
    rw [empty] at shown
    exact some ((d.context.shown_eq_nil_iff d.accepted).1 shown.symm field)
  have read : readNumbers d.context.text = d.context.shown d.accepted := by
    rw [Context.text, coherent.parts_eq, ← shown]
    exact readNumbers_intercalate some_item (readable_items d.context d.accepted)
  refine ⟨fun empty => ?_, read⟩
  -- An empty text would show a number with no mark.
  have unmarked : Shown.mk [] [] ∈ d.context.shown d.accepted := by
    rw [← read, empty]
    exact List.mem_singleton_self _
  obtain ⟨field, -, shown⟩ := List.mem_filterMap.1 unmarked
  exact field.mark_ne_nil d.accepted (mark_of_shownIn? shown).symm

end Decision.Coherent

/-! ## What a text tells -/

/-- What the text of a decision starts with. -/
def Decision.opening (d : Decision) : String :=
  if d.accepted then "inlining: " else "not inlining: "

/-- What is in parentheses after the tag of a decision: all numbers of the context that are present,
each of them once and in order, the bound on a size in the relation that the verdict rests on. -/
structure Context.Lists (c : Context) (accepted : Bool) (inside : String) : Prop where
  nonempty : inside ≠ ""
  read : readNumbers inside = c.shown accepted
  once : ((readNumbers inside).map Shown.mark).Nodup

/-- A text that tells a decision. -/
structure Decision.ToldBy (d : Decision) (text : String) : Prop where
  accepted : "inlining: ".toList <+: text.toList ↔ d.accepted = true
  rejected : "not inlining: ".toList <+: text.toList ↔ d.accepted = false
  /-- The tag and the numbers follow, and nothing else. -/
  rest : ∃ numbers, text = d.opening ++ d.reason.tag ++ numbers ∧
    (numbers ≠ "" ↔ ∃ field, d.context.number? field ≠ none) ∧
    (numbers ≠ "" → ∃ inside, numbers = " (" ++ inside ++ ")" ∧ d.context.Lists d.accepted inside)
  /-- A decision that rests on a bound shows it, next to the size. -/
  relevanceBased : d.reason = .relevanceBased →
    d.context.number? .nodes ≠ none ∧ d.context.number? .maximumNodes ≠ none
  /-- Where the text says that the caller's graph has reached its limit, it has. -/
  graph : ∀ size limit, d.context.graphNodes = some size →
    d.context.maximumDesiredSize = some limit → limit ≤ size

theorem Decision.text_eq (d : Decision) :
    d.text = d.opening ++ d.reason.tag ++
      if d.context = {} then "" else " (" ++ d.context.text ++ ")" := by
  unfold text opening
  cases d.accepted <;> split_ifs <;> rfl

/-- The two openings are different, so the text shows the verdict. -/
theorem Decision.opening_iff (d : Decision) :
    ("inlining: ".toList <+: d.text.toList ↔ d.accepted = true) ∧
      ("not inlining: ".toList <+: d.text.toList ↔ d.accepted = false) := by
  have opening : d.opening.toList <+: d.text.toList := by
    rw [text_eq, String.append_assoc, String.toList_append]
    exact List.prefix_append _ _
  have exclusive : ¬ ("inlining: ".toList <+: d.text.toList ∧
      "not inlining: ".toList <+: d.text.toList) := by
    rintro ⟨⟨rest, h⟩, ⟨rest', h'⟩⟩
    have first : 'i' = 'n' := (List.cons.inj (h.trans h'.symm)).1
    exact absurd first (by decide)
  unfold Decision.opening at opening
  cases verdict : d.accepted with
  | true =>
    rw [verdict] at opening
    exact ⟨iff_of_true opening rfl, iff_of_false (fun h => exclusive ⟨opening, h⟩) (by simp)⟩
  | false =>
    rw [verdict] at opening
    exact ⟨iff_of_false (fun h => exclusive ⟨h, opening⟩) (by simp), iff_of_true opening rfl⟩

/-- The text of every decision that the policy makes tells it. -/
theorem text_toldBy {d : Decision} (returned : d.Returned) : d.ToldBy d.text := by
  have coherent := returned.coherent
  have present : d.context ≠ {} ↔ ∃ field, d.context.number? field ≠ none := by
    rw [ne_eq, Context.eq_empty_iff, not_forall]
  refine ⟨d.opening_iff.1, d.opening_iff.2, ⟨_, d.text_eq, ?_, ?_⟩, ?_, ?_⟩
  · rw [← present]
    by_cases empty : d.context = {} <;> simp [empty]
  · by_cases empty : d.context = {}
    · simp [empty]
    · obtain ⟨nonempty, read⟩ := coherent.readNumbers_text (present.1 empty)
      refine fun _ => ⟨d.context.text, if_neg empty, nonempty, read, ?_⟩
      rw [read]
      exact d.context.nodup_marks_shown d.accepted
  · intro reason
    obtain ⟨maximum, bounded⟩ := Option.isSome_iff_exists.1 (coherent.relevanceBased reason)
    obtain ⟨nodes, sized, -⟩ := coherent.bound maximum bounded
    simp [Context.number?, bounded, sized]
  · intro size limit sized limited
    obtain ⟨_, limited', le⟩ := coherent.graph size sized
    rwa [Option.some.inj (limited.symm.trans limited')]

/-- A decision with a bonus that is no number. -/
def Decision.unbounded : Decision :=
  Policy.evaluate ⟨ConstantScorer.toScorer ⟨0.0 / 0.0, none, 0.0, none⟩, fun _ => false⟩ {}
    { callee := { name := "A.m", callSite := ⟨7⟩, nodeCount := 5 }
      probability := 1.0
      relevance := 1.0 / 0.0 }
    false

/-- The bound is no number either, and is shown as one that is exceeded. -/
theorem text_toldBy_unbounded :
    Decision.unbounded.Returned ∧ Decision.unbounded.ToldBy Decision.unbounded.text ∧
      Decision.unbounded.text = "not inlining: relevance-based " ++
        "(relevance=inf, probability=1.000000, bonus=NaN, nodes=5 > NaN)" := by
  have returned : Decision.unbounded.Returned := .evaluate ..
  exact ⟨returned, text_toldBy returned, by decide⟩

end InlinePolicy
