import BitSerial.Proofs.Text.Layout
import BitSerial.Proofs.Text.UpperCase

/-!
# Letters of either case

A letter of ASCII may be small or capital: neither case is a blank or a mark, and both
have the same upper case.  So a text is taken apart in the same places whatever the case
of its letters, and its parts are the same in upper case.
-/

namespace BitSerial.Text

/-! ## Characters -/

theorem toUpper_of_wide {char : Char} (wide : ¬char.toNat < 128) : char.toUpper = char := by
  have beyond : ¬('a'.val ≤ char.val ∧ char.val ≤ 'z'.val) := by
    rintro ⟨-, last⟩
    have code : char.toNat ≤ 122 := UInt32.le_iff_toNat_le.mp last
    omega
  exact dif_neg beyond

/-- What is told by the code of a character, and not by the case of an ASCII letter. -/
theorem apply_toUpper {α : Type} (tells : Char → α)
    (codes : ∀ code < 128, tells (Char.ofNat code).toUpper = tells (Char.ofNat code))
    (char : Char) : tells char.toUpper = tells char := by
  by_cases narrow : char.toNat < 128
  · exact forall_of_forall_code (fun char => tells char.toUpper = tells char) codes narrow
  · rw [toUpper_of_wide narrow]

theorem isBlank_toUpper (char : Char) : isBlank char.toUpper = isBlank char :=
  apply_toUpper _ (by decide +kernel) char

theorem upperChar_toUpper (char : Char) : upperChar char.toUpper = upperChar char :=
  apply_toUpper _ (by decide +kernel) char

/-! ## Texts -/

/-- A text with capitals for its ASCII letters. -/
def capitals (text : List Char) : List Char :=
  text.map Char.toUpper

/-- The upper case of ASCII text is in capitals. -/
theorem upper_of_narrow {text : List Char} (narrow : ∀ char ∈ text, char.toNat < 128) :
    upper text = capitals text := by
  induction text with
  | nil => rfl
  | cons char rest ih =>
      obtain ⟨first, others⟩ := List.forall_mem_cons.mp narrow
      rw [upper, List.flatMap_cons, upperChar, if_pos first, ← upper, ih others]
      rfl

theorem upper_capitals (text : List Char) : upper (capitals text) = upper text := by
  have same : (fun char => upperChar char.toUpper) = upperChar := funext upperChar_toUpper
  rw [upper, upper, capitals, List.flatMap_map, same]

section

variable {tells : Char → Bool} (blind : ∀ char, tells char.toUpper = tells char)

include blind

theorem takeWhile_capitals (text : List Char) :
    (capitals text).takeWhile tells = capitals (text.takeWhile tells) := by
  have same : tells ∘ Char.toUpper = tells := funext blind
  rw [capitals, List.takeWhile_map, same]
  rfl

theorem dropWhile_capitals (text : List Char) :
    (capitals text).dropWhile tells = capitals (text.dropWhile tells) := by
  have same : tells ∘ Char.toUpper = tells := funext blind
  rw [capitals, List.dropWhile_map, same]
  rfl

theorem runsFrom_capitals (begun text : List Char) :
    runsFrom tells (capitals begun) (capitals text) =
      (runsFrom tells begun text).map capitals := by
  have ended (begun : List Char) :
      runsFrom tells (capitals begun) [] = (runsFrom tells begun []).map capitals := by
    cases begun with
    | nil => rfl
    | cons char begun =>
        have some : capitals (char :: begun) ≠ [] := List.cons_ne_nil _ _
        rw [runsFrom_nil_of_ne_nil some, runsFrom_nil_of_ne_nil (List.cons_ne_nil _ _), capitals,
          ← List.map_reverse]
        rfl
  induction text generalizing begun with
  | nil => exact ended begun
  | cons char text ih =>
      have split : capitals (char :: text) = char.toUpper :: capitals text := rfl
      have capital := blind char
      cases inside : tells char with
      | false =>
          rw [inside] at capital
          rw [split, runsFrom_cons_of_not capital, runsFrom_cons_of_not inside, ← ih]
          rfl
      | true =>
          rw [inside] at capital
          have later : runs tells (capitals text) = (runs tells text).map capitals := ih []
          rw [split, runsFrom_cons capital, runsFrom_cons inside, List.map_append, ended, later]

theorem runs_capitals (text : List Char) :
    runs tells (capitals text) = (runs tells text).map capitals :=
  runsFrom_capitals blind [] text

end

theorem trim_capitals (text : List Char) : trim (capitals text) = capitals (trim text) := by
  have left (text : List Char) : trimLeft (capitals text) = capitals (trimLeft text) :=
    dropWhile_capitals isBlank_toUpper text
  have reversed (text : List Char) : (capitals text).reverse = capitals text.reverse :=
    List.map_reverse.symm
  rw [trim, left, trimRight, reversed, left, reversed]
  rfl

end BitSerial.Text
