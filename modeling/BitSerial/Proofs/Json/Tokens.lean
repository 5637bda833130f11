import BitSerial.Json.Printer
import BitSerial.Json.Token
import BitSerial.Proofs.Text.Numerals
import Mathlib.Data.List.Basic
import Mathlib.Data.List.TakeDrop
import Mathlib.Data.List.TakeWhile

/-!
# Tokens of printed values

A value that is printed without decimals is spelled by a list of tokens, and its
indented text is read as just those.  A number is the one token that does not show
its own end, so what follows it must not run on.
-/

namespace BitSerial.Json

/-- Values without decimals and without unreadable parts. -/
inductive Whole : Json → Prop
  | null : Whole .null
  | bool (value : Bool) : Whole (.bool value)
  | integer (value : Int) : Whole (.integer value)
  | string (content : String) : Whole (.string content)
  | array {items : List Json} (each : ∀ item ∈ items, Whole item) : Whole (.array items)
  | object {members : List (String × Json)} (each : ∀ member ∈ members, Whole member.2) :
      Whole (.object members)

mutual

/-- The tokens that spell a value. -/
def tokens : Json → List Token
  | .array items => .openArray :: itemTokens items
  | .object members => .openObject :: memberTokens members
  | .string content => [.text (some content)]
  | value => [.scalar value]

/-- The tokens of an array's items, and of its end. -/
def itemTokens : List Json → List Token
  | [] => [.closeArray]
  | [item] => tokens item ++ [.closeArray]
  | item :: rest => tokens item ++ .comma :: itemTokens rest

/-- The tokens of an object's members, and of its end. -/
def memberTokens : List (String × Json) → List Token
  | [] => [.closeObject]
  | [(name, value)] => .text (some name) :: .colon :: tokens value ++ [.closeObject]
  | (name, value) :: rest =>
      .text (some name) :: .colon :: tokens value ++ .comma :: memberTokens rest

end

/-! ## Text in front of other text -/

/-- Text that is read as some tokens when other text follows, whatever was found
before. -/
def Spells (rest text : List Char) (tokens : List Token) : Prop :=
  ∀ fuel found, (text ++ rest).length ≤ fuel →
    ∃ left, rest.length ≤ left ∧
      tokensWithin fuel found (text ++ rest) = tokensWithin left (tokens.reverse ++ found) rest

theorem Spells.append {rest front behind : List Char} {first second : List Token}
    (frontSpells : Spells (behind ++ rest) front first) (behindSpells : Spells rest behind second) :
    Spells rest (front ++ behind) (first ++ second) := by
  intro fuel found enough
  rw [List.append_assoc] at enough ⊢
  obtain ⟨middle, enoughMiddle, frontRead⟩ := frontSpells fuel found enough
  obtain ⟨left, enoughLeft, behindRead⟩ := behindSpells middle (first.reverse ++ found) enoughMiddle
  refine ⟨left, enoughLeft, ?_⟩
  rw [frontRead, behindRead, List.reverse_append, List.append_assoc]

/-- A single token, spelled by more than blanks. -/
theorem spells_token {rest text : List Char} {token : Token} {char : Char}
    (solid : isSpace char = false)
    (read : token? (char :: text ++ rest) = some (token, rest)) :
    Spells rest (char :: text) [token] := by
  intro fuel found enough
  cases fuel with
  | zero => exact absurd enough (by simp)
  | succ fuel =>
      refine ⟨fuel, ?_, ?_⟩
      · simp at enough
        omega
      · rw [List.cons_append] at read ⊢
        rw [tokensWithin, solid, read]
        rfl

/-- A mark in front of what follows it. -/
theorem Spells.mark {rest text : List Char} {tokens : List Token} (spells : Spells rest text tokens)
    {char : Char} {token : Token} (solid : isSpace char = false)
    (read : ∀ rest, token? (char :: rest) = some (token, rest)) :
    Spells rest (char :: text) (token :: tokens) := by
  have front : Spells (text ++ rest) [char] [token] := spells_token solid (read (text ++ rest))
  exact front.append spells

theorem spells_nil (rest : List Char) : Spells rest [] [] :=
  fun fuel _ enough => ⟨fuel, enough, rfl⟩

theorem spells_blanks (rest : List Char) {blanks : List Char}
    (blank : ∀ char ∈ blanks, isSpace char = true) : Spells rest blanks [] := by
  intro fuel found enough
  induction blanks generalizing fuel with
  | nil => exact ⟨fuel, enough, rfl⟩
  | cons char blanks ih =>
      cases fuel with
      | zero => exact absurd enough (by simp)
      | succ fuel =>
          have fewer : (blanks ++ rest).length ≤ fuel := by
            simpa using enough
          obtain ⟨left, enoughLeft, read⟩ :=
            ih (fun char member => blank char (List.mem_cons_of_mem _ member)) fuel fewer
          refine ⟨left, enoughLeft, ?_⟩
          rw [List.cons_append, tokensWithin, blank char List.mem_cons_self, if_pos rfl, read]

theorem spells_line (rest : List Char) (depth : Nat) : Spells rest (lineAt depth) [] := by
  apply spells_blanks
  intro char member
  rcases List.mem_cons.mp member with rfl | column
  · rfl
  · rw [List.eq_of_mem_replicate column]
    rfl

/-- Text that is tokens to its end has just those tokens. -/
theorem tokens?_of_spells {text : List Char} {tokens : List Token}
    (spells : Spells [] text tokens) :
    tokens? text = some tokens := by
  obtain ⟨left, -, read⟩ := spells text.length [] (by simp)
  rw [List.append_nil, List.append_nil] at read
  rw [tokens?, read]
  cases left <;> simp [tokensWithin]

/-! ## Quoted text -/

/-- A control character is read back from its code. -/
theorem code_of_control {code : Nat} (control : code < 32) :
    ∃ first second third fourth,
      Numeral.padded 4 (Nat.toDigits 16 code) = [first, second, third, fourth] ∧
        Numeral.read? 16 [first, second, third, fourth] = some code := by
  have every : ∀ code < 32, (Numeral.padded 4 (Nat.toDigits 16 code)).length = 4 ∧
      Numeral.read? 16 (Numeral.padded 4 (Nat.toDigits 16 code)) = some code := by decide
  obtain ⟨four, read⟩ := every code control
  obtain ⟨first, second, third, fourth, digits⟩ := List.length_eq_four.mp four
  rw [digits] at read
  exact ⟨first, second, third, fourth, digits, read⟩

/-- A unit below the surrogates is a character by itself. -/
theorem Spelling.unit_of_control (spelling : Spelling) {code : Nat} (control : code < 32) :
    spelling.unit code = spelling.char (Char.ofNat code) := by
  rw [Spelling.unit, if_neg (by omega), if_neg (by omega)]

/-- A quoted character is read as itself, whatever was read before. -/
theorem text?_quotedChar (spelling : Spelling) (char : Char) (rest : List Char) :
    text? spelling (quotedChar char ++ rest) = text? (spelling.char char) rest := by
  rw [quotedChar.eq_def]
  split
  iterate 7 rfl
  rename_i quote backslash _ _ _ _ _
  split
  · rename_i control
    obtain ⟨first, second, third, fourth, digits, read⟩ := code_of_control control
    rw [digits]
    show text? spelling ('\\' :: 'u' :: first :: second :: third :: fourth :: rest) = _
    rw [text?, read]
    dsimp only
    rw [spelling.unit_of_control control, Char.ofNat_toNat]
  · rename_i plain
    show text? spelling (char :: rest) = _
    rw [text?.eq_def]
    split
    · contradiction
    · rename_i same
      cases same
      exact absurd rfl quote
    · rename_i same
      cases same
      exact absurd rfl backslash
    · rename_i same
      cases same
      exact absurd rfl backslash
    · rename_i same
      cases same
      rw [if_neg plain]

theorem text?_flatMap (text read rest : List Char) :
    text? { chars := read } (text.flatMap quotedChar ++ '"' :: rest) =
      some (some (String.ofList (read.reverse ++ text)), rest) := by
  induction text generalizing read with
  | nil =>
      show text? { chars := read } ('"' :: rest) = _
      rw [text?, List.append_nil]
      rfl
  | cons char text ih =>
      have next : (Spelling.mk read none false).char char = { chars := char :: read } := rfl
      rw [List.flatMap_cons, List.append_assoc, text?_quotedChar, next, ih, List.reverse_cons,
        List.append_assoc]
      rfl

theorem spells_quoted (rest : List Char) (content : String) :
    Spells rest (quoted content) [.text (some content)] := by
  have read := text?_flatMap content.toList [] rest
  rw [List.reverse_nil, List.nil_append, String.ofList_toList] at read
  apply spells_token rfl
  show (text? {} (content.toList.flatMap quotedChar ++ ['"'] ++ rest)).map _ = _
  rw [List.append_assoc, List.singleton_append, read]
  rfl

/-! ## Numbers -/

/-- Text that does not run on behind a number. -/
def Ends (text : List Char) : Prop :=
  ∀ char ∈ text.head?,
    Numeral.isDecimal char = false ∧ char ≠ '.' ∧ char ≠ 'e' ∧ char ≠ 'E'

theorem ends_break (rest : List Char) : Ends ('\n' :: rest) := by
  rintro _ ⟨⟩
  decide

theorem ends_comma (rest : List Char) : Ends (',' :: rest) := by
  rintro _ ⟨⟩
  decide

theorem ends_nil : Ends [] := by
  rintro _ ⟨⟩

/-- Only zero begins with a zero. -/
theorem head?_decimal {value : Nat} (positive : 0 < value) :
    (Numeral.decimal value).head? ≠ some '0' := by
  induction value using Nat.strongRecOn with
  | ind value ih =>
      rw [Numeral.decimal]
      rcases Nat.lt_or_ge value 10 with small | large
      · have digits : ∀ digit < 10, 0 < digit → [digit.digitChar].head? ≠ some '0' := by decide
        rw [Nat.toDigits_of_lt_base small]
        exact digits value small positive
      · have shorter := ih (value / 10) (by omega) (by omega)
        rw [Nat.toDigits_of_base_le (by decide) large,
          List.head?_append_of_ne_nil _ Nat.toDigits_ne_nil]
        exact shorter

theorem span_decimal (value : Nat) {rest : List Char} (ends : Ends rest) :
    (Numeral.decimal value ++ rest).span Numeral.isDecimal = (Numeral.decimal value, rest) := by
  have digits : ∀ char ∈ Numeral.decimal value, Numeral.isDecimal char = true :=
    Numeral.isDecimal_of_mem_decimal
  have taken : rest.takeWhile Numeral.isDecimal = [] := by
    cases rest with
    | nil => rfl
    | cons char rest => rw [List.takeWhile_cons_of_neg (by simp [(ends char rfl).1])]
  have dropped : rest.dropWhile Numeral.isDecimal = rest := by
    cases rest with
    | nil => rfl
    | cons char rest => rw [List.dropWhile_cons_of_neg (by simp [(ends char rfl).1])]
  rw [List.span_eq_takeWhile_dropWhile, List.takeWhile_append_of_pos digits,
    List.dropWhile_append_of_pos digits, taken, dropped, List.append_nil]

theorem wholePart?_decimal (value : Nat) {rest : List Char} (ends : Ends rest) :
    wholePart? (Numeral.decimal value ++ rest) = some (Numeral.decimal value, rest) := by
  rcases Nat.eq_zero_or_pos value with rfl | positive
  · rfl
  · rw [wholePart?.eq_def]
    split
    · rename_i first
      have head := congrArg List.head? first
      rw [List.head?_append_of_ne_nil _ (Numeral.decimal_ne_nil value)] at head
      exact absurd head (head?_decimal positive)
    · rw [digits?, span_decimal value ends]
      split
      · rename_i none
        exact absurd (congrArg Prod.fst none) (Numeral.decimal_ne_nil value)
      · rename_i digits
        cases digits
        rfl

theorem fraction?_of_ends {rest : List Char} (ends : Ends rest) :
    fraction? rest = some (none, rest) := by
  rw [fraction?.eq_def]
  split
  · exact absurd rfl (ends '.' rfl).2.1
  · rfl

theorem exponent?_of_ends {rest : List Char} (ends : Ends rest) :
    exponent? rest = some (none, rest) := by
  cases rest with
  | nil => rfl
  | cons char rest =>
      obtain ⟨-, -, lower, upper⟩ := ends char rfl
      exact if_neg (not_or.mpr ⟨lower, upper⟩)

/-- The parts of a number without fraction and exponent, behind its sign. -/
theorem parts_decimal (negative : Bool) (magnitude : Nat) {rest : List Char} (ends : Ends rest) :
    ((wholePart? (Numeral.decimal magnitude ++ rest)).bind fun (whole, chars) =>
      (fraction? chars).bind fun (fraction, chars) =>
        (exponent? chars).map fun (exponent, chars) =>
          (numberOf negative whole fraction exponent, chars)) =
      some (numberOf negative (Numeral.decimal magnitude) none none, rest) := by
  rw [wholePart?_decimal magnitude ends]
  dsimp only [Option.bind_some]
  rw [fraction?_of_ends ends]
  dsimp only [Option.bind_some]
  rw [exponent?_of_ends ends]
  rfl

/-- A plain numeral is an integer, and so is one behind a sign unless it is zero. -/
theorem numberOf_decimal (negative : Bool) (magnitude : Nat)
    (signed : negative = true → magnitude ≠ 0) :
    numberOf negative (Numeral.decimal magnitude) none none =
      .integer (if negative then -(magnitude : Int) else magnitude) := by
  have value : Nat.ofDigitChars 10 (Numeral.decimal magnitude ++ []) 0 = magnitude := by
    rw [List.append_nil]
    exact Nat.ofDigitChars_toDigits (by decide) (by decide)
  rw [numberOf, Option.getD_none, value]
  apply if_pos
  simpa using signed

theorem exists_cons_decimal (number : Nat) :
    ∃ first digits, Numeral.decimal number = first :: digits ∧ Numeral.isDecimal first = true := by
  obtain ⟨first, digits, written⟩ := List.exists_cons_of_ne_nil (Numeral.decimal_ne_nil number)
  have member : first ∈ Numeral.decimal number := by
    rw [written]
    exact List.mem_cons_self
  exact ⟨first, digits, written, Numeral.isDecimal_of_mem_decimal first member⟩

theorem number?_signed (value : Int) {rest : List Char} (ends : Ends rest) :
    number? (Numeral.signed value ++ rest) = some (.integer value, rest) := by
  cases value with
  | ofNat magnitude =>
      obtain ⟨first, digits, written, digit⟩ := exists_cons_decimal magnitude
      have parts := parts_decimal false magnitude ends
      rw [numberOf_decimal false magnitude (by simp)] at parts
      rw [number?.eq_def, Numeral.signed]
      rw [written, List.cons_append] at parts ⊢
      split
      rename_i sign
      split at sign
      · rename_i minus
        cases minus
        exact absurd digit (by decide)
      · cases sign
        exact parts
  | negSucc magnitude =>
      have parts := parts_decimal true (magnitude + 1) ends
      rw [numberOf_decimal true (magnitude + 1) (by simp)] at parts
      exact parts

/-- Whether a character begins a number: a digit or a minus sign. -/
def begins (char : Char) : Bool :=
  Numeral.isDecimal char || char = '-'

theorem begins_signed (value : Int) :
    ∃ char digits, Numeral.signed value = char :: digits ∧ begins char = true := by
  cases value with
  | ofNat magnitude =>
      obtain ⟨char, digits, written, digit⟩ := exists_cons_decimal magnitude
      exact ⟨char, digits, written, by rw [begins, digit, Bool.true_or]⟩
  | negSucc magnitude => exact ⟨'-', Numeral.decimal (magnitude + 1), rfl, rfl⟩

theorem isSpace_of_begins {char : Char} (number : begins char = true) : isSpace char = false := by
  rw [← Bool.not_eq_true]
  intro space
  simp only [isSpace, Bool.or_eq_true, decide_eq_true_eq] at space
  obtain ((rfl | rfl) | rfl) | rfl := space <;> exact absurd number (by decide)

theorem token?_of_begins {char : Char} (number : begins char = true) (rest : List Char) :
    token? (char :: rest) =
      (number? (char :: rest)).map fun (value, rest) => (.scalar value, rest) := by
  rw [token?.eq_def]
  split
  · contradiction
  iterate 10
    rename_i same
    cases same
    exact absurd number (by decide)
  · rfl

theorem spells_integer (value : Int) {rest : List Char} (ends : Ends rest) :
    Spells rest (Numeral.signed value) [.scalar (.integer value)] := by
  have read := number?_signed value ends
  obtain ⟨char, digits, written, number⟩ := begins_signed value
  rw [written] at read ⊢
  apply spells_token (isSpace_of_begins number)
  rw [List.cons_append] at read ⊢
  rw [token?_of_begins number, read]
  rfl

/-! ## Values -/

/-- The items of an array are spelled, each on its line, if each item is. -/
theorem spells_items {items : List Json} (some : items ≠ []) (depth : Nat)
    (each : ∀ item ∈ items, ∀ rest, Ends rest →
      Spells rest (indentedChars (depth + 1) item) (tokens item)) (rest : List Char) :
    Spells rest (indentedItems depth items) (itemTokens items) := by
  induction items with
  | nil => exact absurd rfl some
  | cons item items ih =>
      have here := each item List.mem_cons_self
      cases items with
      | nil =>
          have close : Spells rest (lineAt depth ++ [']']) [.closeArray] :=
            (spells_line _ depth).append ((spells_nil rest).mark rfl fun _ => rfl)
          have value := (here _ (ends_break _)).append close
          rw [indentedItems, itemTokens, List.append_assoc, List.append_assoc]
          exact (spells_line _ (depth + 1)).append value
      | cons next items =>
          have others := ih (List.cons_ne_nil next items)
            fun other member => each other (List.mem_cons_of_mem item member)
          have comma : Spells rest (',' :: indentedItems depth (next :: items))
              (.comma :: itemTokens (next :: items)) := others.mark rfl fun _ => rfl
          have value := (here _ (ends_comma _)).append comma
          rw [indentedItems, itemTokens, List.append_assoc]
          · exact (spells_line _ (depth + 1)).append value
          · exact List.cons_ne_nil next items
          · exact List.cons_ne_nil next items

/-- A member is spelled, on its line, if its value and what follows are. -/
theorem spells_member (depth : Nat) (name : String) {text rest : List Char} {tokens : List Token}
    (spells : Spells rest text tokens) :
    Spells rest (lineAt depth ++ (quoted name ++ ':' :: ' ' :: text))
      (.text (some name) :: .colon :: tokens) := by
  have column : Spells (text ++ rest) [' '] [] :=
    spells_blanks (text ++ rest) (List.forall_mem_singleton.mpr rfl)
  have blank : Spells rest (' ' :: text) tokens := column.append spells
  have colon : Spells rest (':' :: ' ' :: text) (.colon :: tokens) := blank.mark rfl fun _ => rfl
  exact (spells_line _ depth).append ((spells_quoted _ name).append colon)

/-- The members of an object are spelled, each on its line, if each value is. -/
theorem spells_members {members : List (String × Json)} (some : members ≠ []) (depth : Nat)
    (each : ∀ member ∈ members, ∀ rest, Ends rest →
      Spells rest (indentedChars (depth + 1) member.2) (tokens member.2)) (rest : List Char) :
    Spells rest (indentedMembers depth members) (memberTokens members) := by
  induction members with
  | nil => exact absurd rfl some
  | cons member members ih =>
      obtain ⟨name, content⟩ := member
      have here := each (name, content) List.mem_cons_self
      cases members with
      | nil =>
          have close : Spells rest (lineAt depth ++ ['\x7d']) [.closeObject] :=
            (spells_line _ depth).append ((spells_nil rest).mark rfl fun _ => rfl)
          have value := (here _ (ends_break _)).append close
          have named := spells_member (depth + 1) name value
          rw [indentedMembers, memberTokens]
          simpa using named
      | cons next members =>
          have others := ih (List.cons_ne_nil next members)
            fun other later => each other (List.mem_cons_of_mem _ later)
          have comma : Spells rest (',' :: indentedMembers depth (next :: members))
              (.comma :: memberTokens (next :: members)) := others.mark rfl fun _ => rfl
          have value := (here _ (ends_comma _)).append comma
          have named := spells_member (depth + 1) name value
          rw [indentedMembers, memberTokens]
          · simpa using named
          · exact List.cons_ne_nil next members
          · exact List.cons_ne_nil next members

/-- The indented text of a value is read as its tokens, in front of anything that does
not run on. -/
theorem Whole.spells {value : Json} (whole : Whole value) (depth : Nat) {rest : List Char}
    (ends : Ends rest) : Spells rest (indentedChars depth value) (tokens value) := by
  induction whole generalizing depth rest with
  | null => exact spells_token rfl rfl
  | bool value => cases value <;> exact spells_token rfl rfl
  | integer value => exact spells_integer value ends
  | string content => exact spells_quoted rest content
  | @array items each ih =>
      cases items with
      | nil =>
          have close : Spells rest [']'] [.closeArray] := (spells_nil rest).mark rfl fun _ => rfl
          exact close.mark rfl fun _ => rfl
      | cons item items =>
          have inside := spells_items (List.cons_ne_nil item items) depth
            (fun other member _ ends => ih other member (depth + 1) ends) rest
          exact inside.mark rfl fun _ => rfl
  | @object members each ih =>
      cases members with
      | nil =>
          have close : Spells rest ['\x7d'] [.closeObject] :=
            (spells_nil rest).mark rfl fun _ => rfl
          exact close.mark rfl fun _ => rfl
      | cons member members =>
          have inside := spells_members (List.cons_ne_nil member members) depth
            (fun other later _ ends => ih other later (depth + 1) ends) rest
          exact inside.mark rfl fun _ => rfl

/-- The tokens of a printed value are its own. -/
theorem Whole.tokens?_indented {value : Json} (whole : Whole value) :
    tokens? value.indented.toList = some (tokens value) := by
  rw [indented, String.toList_ofList]
  exact tokens?_of_spells (whole.spells 0 ends_nil)

end BitSerial.Json
