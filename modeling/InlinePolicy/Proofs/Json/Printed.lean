import Mathlib
import InlinePolicy.Json.Reader
import InlinePolicy.Proofs.Json.Tokens

/-!
# Printed values read back

`Place.run` follows a text from one place to another.  The text of a printed value leads from a
place where a value may stand to the place after that value (`Json.Readable.reads`), whatever the
layout puts between the tokens; so a printed value is read back (`parse?_compact`, `parse?_pretty`).
-/

namespace InlinePolicy.Json

open Decimal

/-! ## Values with a text -/

/-- A value that its text denotes: no part of it is unreadable, and every integer in it fits a word
or a signed word. -/
inductive Readable : Json → Prop where
  | null : Readable .null
  | bool (b : Bool) : Readable (.bool b)
  | integer {n : ℤ} (fits : (Word.ofInt? n).isSome ∨ (Word.ofSigned? n).isSome) :
    Readable (.integer n)
  | real (x : Float) (finite : x.isFinite = true) : Readable (.real x finite)
  | string (s : String) : Readable (.string s)
  | array {items : List Json} (each : ∀ item ∈ items, Readable item) : Readable (.array items)
  | object {members : List (String × Json)} (each : ∀ member ∈ members, Readable member.2) :
    Readable (.object members)

/-! ## Following a text -/

namespace Place

/-- The place at the end of a text, starting from a place. -/
def run (place : Place) (s : List Char) : Option Place :=
  Token.ofText? s >>= fun tokens => tokens.foldlM next place

variable {place : Place} {s : List Char}

theorem run_nil (place : Place) : run place [] = some place := by
  unfold run
  rw [Token.ofText?]
  rfl

theorem run_blank {c : Char} (blank : isBlank c = true) : run place (c :: s) = run place s := by
  unfold run
  rw [Token.ofText?, if_pos blank]

theorem run_blanks {blanks : List Char} (blank : ∀ c ∈ blanks, isBlank c = true) :
    run place (blanks ++ s) = run place s := by
  induction blanks with
  | nil => rfl
  | cons c blanks ih =>
    rw [List.cons_append, run_blank (blank c List.mem_cons_self),
      ih fun c mem => blank c (List.mem_cons_of_mem _ mem)]

/-- One token leads to the next place. -/
theorem run_scan {c : Char} {token : Token} {rest : List Char} (visible : isBlank c = false)
    (scan : Token.scan c s = some (token, rest)) :
    run place (c :: s) = (place.next token).bind fun place => run place rest := by
  unfold run
  rw [Token.ofText?, if_neg (by simp [visible])]
  split
  · next found =>
    obtain ⟨rfl, rfl⟩ := Prod.mk.inj (Option.some.inj (scan.symm.trans found))
    cases Token.ofText? rest with
    | none => cases place.next token <;> rfl
    | some tokens => exact List.foldlM_cons (m := Option)
  · next found => cases scan.symm.trans found

theorem run_token {text rest : List Char} {token : Token} (isToken : IsToken text token)
    (ends : EndsNumber rest) :
    run place (text ++ rest) = (place.next token).bind fun place => run place rest := by
  obtain ⟨c, tail, rfl, visible, scan⟩ := isToken
  exact run_scan visible (scan rest ends)

/-- A place where the given containers are open and a value may stand. -/
def Awaits (place : Place) (stack : List Frame) : Prop :=
  place = .beforeValue stack ∨ ∃ items outer, stack = .array items :: outer ∧ place = .opened stack

/-- A value may be the first item of an array, where the array might end as well. -/
theorem next_of_awaits {stack : List Frame} {token : Token} (awaits : place.Awaits stack)
    (starts : begin stack token ≠ none) : place.next token = begin stack token := by
  rcases awaits with rfl | ⟨items, outer, rfl, rfl⟩
  · rfl
  · cases token with
    | closeArray => exact absurd rfl starts
    | _ => rfl

end Place

/-! ## Layouts -/

/-- A layout that puts nothing but blanks between tokens. -/
structure Layout.Blank (layout : Layout) : Prop where
  lineBreak (depth : ℕ) : ∀ c ∈ layout.lineBreak depth, isBlank c = true
  gap : ∀ c ∈ layout.gap, isBlank c = true

theorem Layout.blank_compact : Layout.compact.Blank where
  lineBreak _ _ mem := by cases mem
  gap _ mem := by cases mem

theorem Layout.blank_pretty : Layout.pretty.Blank where
  lineBreak depth c mem := by
    rcases List.mem_cons.1 mem with rfl | mem
    · rfl
    · rw [List.eq_of_mem_replicate mem]
      rfl
  gap c mem := by
    obtain rfl := List.mem_singleton.1 mem
    rfl

/-- No number goes on with a blank. -/
theorem endsNumber_blanks {blanks s : List Char} (blank : ∀ c ∈ blanks, isBlank c = true)
    (ends : EndsNumber s) : EndsNumber (blanks ++ s) := by
  cases blanks with
  | nil => exact ends
  | cons c blanks =>
    have visible := blank c List.mem_cons_self
    rintro c' mem
    obtain rfl : c = c' := Option.some.inj mem
    simp only [isBlank, Bool.or_eq_true, beq_iff_eq] at visible
    rcases visible with ((rfl | rfl) | rfl) | rfl <;> decide

/-! ## Printed values -/

/-- The text of a value leads from where a value may stand to the place after the value. -/
def Reads (layout : Layout) (value : Json) : Prop :=
  ∀ depth place stack rest, Place.Awaits place stack → EndsNumber rest →
    place.run (write layout depth value ++ rest) = (Place.after value stack).run rest

variable {layout : Layout} {rest : List Char}

/-- A value of one token. -/
theorem Reads.of_token {value : Json} {token : Token}
    (begins : ∀ stack, Place.begin stack token = some (.after value stack))
    (isToken : ∀ depth, IsToken (write layout depth value) token) : Reads layout value := by
  intro depth place stack rest awaits ends
  have starts : Place.begin stack token ≠ none := by simp [begins]
  rw [Place.run_token (isToken depth) ends, Place.next_of_awaits awaits starts, begins]
  rfl

theorem isToken_null : IsToken "null".toList (.atom .null) :=
  ⟨'n', "ull".toList, rfl, rfl, fun _ _ => rfl⟩

theorem isToken_true : IsToken "true".toList (.atom (.bool true)) :=
  ⟨'t', "rue".toList, rfl, rfl, fun _ _ => rfl⟩

theorem isToken_false : IsToken "false".toList (.atom (.bool false)) :=
  ⟨'f', "alse".toList, rfl, rfl, fun _ _ => rfl⟩

/-- Marks of punctuation lead on whatever follows. -/
theorem run_mark (token : Token) {place next : Place} {c : Char} (visible : isBlank c = false)
    (scan : ∀ s, Token.scan c s = some (token, s)) (leads : place.next token = some next)
    (s : List Char) : place.run (c :: s) = next.run s := by
  rw [Place.run_scan visible (scan s), leads]
  rfl

/-- No number goes on with a mark of punctuation. -/
theorem endsNumber_mark {c : Char}
    (mark : c.isDigit = false ∧ c ≠ '.' ∧ c ≠ 'e' ∧ c ≠ 'E') (s : List Char) :
    EndsNumber (c :: s) := by
  rintro c' mem
  obtain rfl : c = c' := Option.some.inj mem
  exact mark

/-- What stands before the end of a container ends a number, too. -/
theorem endsNumber_lineBreak (blank : layout.Blank) (depth : ℕ) {s : List Char}
    (ends : EndsNumber s) : EndsNumber (layout.lineBreak depth ++ s) :=
  endsNumber_blanks (blank.lineBreak depth) ends

theorem endsNumber_writeItems {items : List Json} (depth : ℕ) (ends : EndsNumber rest) :
    EndsNumber (writeItems layout depth items ++ rest) := by
  cases items with
  | nil => exact ends
  | cons item items => exact endsNumber_mark (by decide) _

theorem endsNumber_writeMembers {members : List (String × Json)} (depth : ℕ)
    (ends : EndsNumber rest) : EndsNumber (writeMembers layout depth members ++ rest) := by
  cases members with
  | nil => exact ends
  | cons member members => exact endsNumber_mark (by decide) _

/-- The items after the first one. -/
theorem run_writeItems (blank : layout.Blank) {items : List Json}
    (each : ∀ item ∈ items, Reads layout item) (depth : ℕ) (done : List Json) (outer : List Frame)
    (ends : EndsNumber rest) :
    (Place.afterItem (.array done :: outer)).run (writeItems layout depth items ++ rest) =
      (Place.afterItem (.array (items.reverse ++ done) :: outer)).run rest := by
  induction items generalizing done with
  | nil => rfl
  | cons item items ih =>
    have reads := each item List.mem_cons_self
    have others := ih fun item mem => each item (List.mem_cons_of_mem _ mem)
    simp only [writeItems, List.cons_append, List.append_assoc]
    rw [run_mark .comma rfl (fun _ => rfl) rfl, Place.run_blanks (blank.lineBreak depth),
      reads depth _ _ _ (.inl rfl) (endsNumber_writeItems depth ends), Place.after, others,
      List.reverse_cons, List.append_assoc, List.singleton_append]

/-- A member: its name, a colon and its value. -/
theorem run_member (blank : layout.Blank) {place : Place} {name : String} {value : Json}
    {done : Members} {outer : List Frame} (reads : Reads layout value) (depth : ℕ)
    (named : place.next (.text (some name)) =
      some (.afterName (.member (some name) done :: outer)))
    (ends : EndsNumber rest) :
    place.run (writeString name ++ ':' :: (layout.gap ++ (write layout depth value ++ rest))) =
      (Place.afterItem (.object ((some name, value) :: done) :: outer)).run rest := by
  rw [Place.run_token (isToken_writeString name) (endsNumber_mark (by decide) _), named,
    Option.bind_some, run_mark .colon rfl (fun _ => rfl) rfl, Place.run_blanks blank.gap,
    reads depth _ _ _ (.inl rfl) ends]
  rfl

/-- A member as the reader collects it. -/
def readMember (member : String × Json) : Option String × Json := (some member.1, member.2)

/-- The members after the first one. -/
theorem run_writeMembers (blank : layout.Blank) {members : List (String × Json)}
    (each : ∀ member ∈ members, Reads layout member.2) (depth : ℕ) (done : Members)
    (outer : List Frame) (ends : EndsNumber rest) :
    (Place.afterItem (.object done :: outer)).run (writeMembers layout depth members ++ rest) =
      (Place.afterItem (.object ((members.map readMember).reverse ++ done) :: outer)).run rest := by
  induction members generalizing done with
  | nil => rfl
  | cons member members ih =>
    have reads := each member List.mem_cons_self
    have others := ih fun member mem => each member (List.mem_cons_of_mem _ mem)
    simp only [writeMembers, List.cons_append, List.append_assoc]
    rw [run_mark .comma rfl (fun _ => rfl) rfl, Place.run_blanks (blank.lineBreak depth),
      run_member blank reads depth rfl (endsNumber_writeMembers depth ends), others, List.map_cons,
      List.reverse_cons, List.append_assoc, List.singleton_append, readMember]

theorem ofMembers_reverse (members : List (String × Json)) :
    ofMembers (members.map readMember).reverse = .object members := by
  have each (members : List (String × Json)) :
      (members.map readMember).mapM (fun member => member.1.map fun name => (name, member.2)) =
        some members := by
    induction members with
    | nil => rfl
    | cons member members ih =>
      rw [List.map_cons, List.mapM_cons, ih]
      rfl
  rw [ofMembers, List.reverse_reverse]
  split
  · next found => rw [Option.some.inj ((each members).symm.trans found)]
  · next found => cases (each members).symm.trans found

theorem reads_array (blank : layout.Blank) {items : List Json}
    (each : ∀ item ∈ items, Reads layout item) : Reads layout (.array items) := by
  intro depth place stack rest awaits ends
  have opens : place.next .openArray = some (.opened (.array [] :: stack)) :=
    Place.next_of_awaits awaits (Option.some_ne_none _)
  cases items with
  | nil =>
    exact (run_mark .openArray rfl (fun _ => rfl) opens _).trans
      (run_mark .closeArray rfl (fun _ => rfl) rfl _)
  | cons item items =>
    have reads := each item List.mem_cons_self
    have others (item) (mem : item ∈ items) := each item (List.mem_cons_of_mem _ mem)
    have closed := endsNumber_lineBreak blank depth (endsNumber_mark (c := ']') (by decide) rest)
    simp only [write, List.cons_append, List.append_assoc, List.nil_append]
    rw [run_mark .openArray rfl (fun _ => rfl) opens,
      Place.run_blanks (blank.lineBreak (depth + 1)),
      reads (depth + 1) _ _ _ (.inr ⟨_, _, rfl, rfl⟩) (endsNumber_writeItems _ closed),
      Place.after, run_writeItems blank others _ _ _ closed,
      Place.run_blanks (blank.lineBreak depth), run_mark .closeArray rfl (fun _ => rfl) rfl]
    simp only [List.reverse_append, List.reverse_reverse, List.reverse_singleton,
      List.singleton_append]

theorem reads_object (blank : layout.Blank) {members : List (String × Json)}
    (each : ∀ member ∈ members, Reads layout member.2) : Reads layout (.object members) := by
  intro depth place stack rest awaits ends
  have opens : place.next .openObject = some (.opened (.object [] :: stack)) :=
    Place.next_of_awaits awaits (Option.some_ne_none _)
  cases members with
  | nil =>
    exact (run_mark .openObject rfl (fun _ => rfl) opens _).trans
      (run_mark .closeObject rfl (fun _ => rfl) rfl _)
  | cons member members =>
    have reads := each member List.mem_cons_self
    have others (member) (mem : member ∈ members) := each member (List.mem_cons_of_mem _ mem)
    have closed := endsNumber_lineBreak blank depth (endsNumber_mark (c := '\x7d') (by decide) rest)
    simp only [write, List.cons_append, List.append_assoc, List.nil_append]
    rw [run_mark .openObject rfl (fun _ => rfl) opens,
      Place.run_blanks (blank.lineBreak (depth + 1)),
      run_member blank reads (depth + 1) rfl (endsNumber_writeMembers _ closed),
      run_writeMembers blank others _ _ _ closed, Place.run_blanks (blank.lineBreak depth),
      run_mark .closeObject rfl (fun _ => rfl) rfl]
    have collected : (members.map readMember).reverse ++ [(some member.1, member.2)] =
        ((member :: members).map readMember).reverse := by
      rw [List.map_cons, List.reverse_cons, readMember]
    rw [collected, ofMembers_reverse]

theorem Readable.reads (blank : layout.Blank) {value : Json} (readable : value.Readable) :
    Reads layout value := by
  induction readable with
  | null => exact .of_token (fun _ => rfl) fun _ => isToken_null
  | bool b => cases b with
    | true => exact .of_token (fun _ => rfl) fun _ => isToken_true
    | false => exact .of_token (fun _ => rfl) fun _ => isToken_false
  | integer fits => exact .of_token (fun _ => rfl) fun _ => isToken_writeInteger fits
  | real x finite => exact .of_token (fun _ => rfl) fun _ => isToken_write finite
  | string s => exact .of_token (fun _ => rfl) fun _ => isToken_writeString s
  | array _ each => exact reads_array blank each
  | object _ each => exact reads_object blank each

/-- A printed value is read back, also if blanks follow it. -/
theorem parse?_write_append (blank : layout.Blank) {value : Json} (readable : value.Readable)
    {blanks : List Char} (after : ∀ c ∈ blanks, isBlank c = true) :
    parse? (String.ofList (write layout 0 value ++ blanks)) = some value := by
  have ends : EndsNumber [] := fun _ mem => by cases mem
  have reads := readable.reads blank 0 _ [] (blanks ++ []) (.inl rfl) (endsNumber_blanks after ends)
  rw [Place.run_blanks after, Place.run_nil, Place.run, List.append_nil] at reads
  rw [parse?, String.toList_ofList]
  obtain ⟨tokens, scanned, built⟩ := Option.bind_eq_some_iff.1 reads
  rw [scanned, Option.bind_eq_bind, Option.bind_some, ofTokens?, built, Place.after]

theorem parse?_write (blank : layout.Blank) {value : Json} (readable : value.Readable) :
    parse? (String.ofList (write layout 0 value)) = some value := by
  have read := parse?_write_append blank readable (List.forall_mem_nil _)
  rwa [List.append_nil] at read

theorem parse?_compact {value : Json} (readable : value.Readable) :
    parse? value.compact = some value :=
  parse?_write Layout.blank_compact readable

theorem parse?_pretty {value : Json} (readable : value.Readable) :
    parse? value.pretty = some value :=
  parse?_write Layout.blank_pretty readable

/-- The text of a value may end in a line break. -/
theorem parse?_pretty_line {value : Json} (readable : value.Readable) :
    parse? (value.pretty ++ "\n") = some value := by
  have line : ∀ c ∈ ['\n'], isBlank c = true := List.forall_mem_singleton.2 rfl
  have read := parse?_write_append Layout.blank_pretty readable line
  rwa [String.ofList_append] at read

end InlinePolicy.Json
