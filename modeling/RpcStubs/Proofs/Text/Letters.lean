import RpcStubs.Text.Capital
namespace RpcStubs.Text

/-!
# ASCII letters and digits

The ranges behind the classes of characters, and what upper and lower case do to them.  The
capital form of an ASCII character is one character, and differs from it for small letters only.
-/

/-- A capital ASCII letter. -/
def IsCapital (character : Char) : Prop :=
  'A' ≤ character ∧ character ≤ 'Z'

/-- An ASCII letter. -/
def IsLetter (character : Char) : Prop :=
  IsCapital character ∨ ('a' ≤ character ∧ character ≤ 'z')

/-- An ASCII digit. -/
def IsDigit (character : Char) : Prop :=
  '0' ≤ character ∧ character ≤ '9'

variable {character : Char}

theorem isUpper_iff :
    character.isUpper = true ↔ IsCapital character := by
  delta Char.isUpper IsCapital
  simp [Char.le_def]

theorem isAlpha_iff :
    character.isAlpha = true ↔ IsLetter character := by
  delta Char.isAlpha Char.isUpper Char.isLower IsLetter IsCapital
  simp [Char.le_def]

theorem isDigit_iff :
    character.isDigit = true ↔ IsDigit character := by
  delta Char.isDigit IsDigit
  simp [Char.le_def]

theorem isAlphanum_iff :
    character.isAlphanum = true ↔ IsLetter character ∨ IsDigit character := by
  rw [Char.isAlphanum, Bool.or_eq_true, isAlpha_iff, isDigit_iff]

/-- Numbers are written in digits. -/
theorem isDigit_of_mem_toString
    {number : Nat}
    (member : character ∈ (toString number).toList) :
    character.isDigit = true := by
  have inDigits : character ∈ Nat.toDigits 10 number := by
    rwa [← Nat.toList_repr]
  exact Nat.isDigit_of_mem_toDigits (by decide) (by decide) inDigits

theorem toNat_lt_of_isAlphanum
    (alphanum : character.isAlphanum = true) :
    character.toNat < 128 := by
  simp only [isAlphanum_iff, IsLetter, IsCapital, IsDigit, Char.le_def, UInt32.le_iff_toNat_le]
    at alphanum
  change ((65 ≤ character.toNat ∧ character.toNat ≤ 90) ∨
    (97 ≤ character.toNat ∧ character.toNat ≤ 122)) ∨
    (48 ≤ character.toNat ∧ character.toNat ≤ 57) at alphanum
  omega

/-- What holds of the first 128 characters holds of every ASCII character. -/
theorem of_ascii
    (Holds : Char → Prop)
    (each : ∀ code < 128, Holds (Char.ofNat code))
    (ascii : character.toNat < 128) :
    Holds character := by
  have here := each character.toNat ascii
  rwa [Char.ofNat_toNat] at here

theorem toUpper_of_ascii
    (ascii : character.toNat < 128) :
    character.toUpper =
      if 97 ≤ character.toNat ∧ character.toNat ≤ 122 then
        Char.ofNat (character.toNat - 32)
      else
        character :=
  of_ascii
    (fun character =>
      character.toUpper =
        if 97 ≤ character.toNat ∧ character.toNat ≤ 122 then
          Char.ofNat (character.toNat - 32)
        else
          character)
    (by decide) ascii

/-- The capital form of an ASCII character is its upper case. -/
theorem capital_of_ascii
    (ascii : character.toNat < 128) :
    capital character = [character.toUpper] := by
  have noWide : wideCapitals.lookup character.toNat = none := by
    have beyond : ∀ pair ∈ wideCapitals, 128 ≤ pair.1 := by
      decide
    rw [List.lookup_eq_none_iff]
    intro pair member
    have := beyond pair member
    rw [bne_iff_ne]
    omega
  have smallLetters : (⟨0x61, 0x7A, 1, -32⟩ : CaseRun) ∈ caseRuns := by
    decide
  have onlyLetters : ∀ run ∈ caseRuns, run = ⟨0x61, 0x7A, 1, -32⟩ ∨ 128 ≤ run.first := by
    decide +kernel
  rw [toUpper_of_ascii ascii]
  unfold capital
  simp only [noWide]
  cases found : caseRuns.find? (·.covers character.toNat) with
  | none =>
      have notSmall : ¬(97 ≤ character.toNat ∧ character.toNat ≤ 122) := by
        have uncovered := List.find?_eq_none.mp found _ smallLetters
        simpa [CaseRun.covers, Nat.mod_one] using uncovered
      rw [if_neg notSmall]
  | some run =>
      have covered : run.covers character.toNat = true := by
        simpa using List.find?_some found
      simp only [CaseRun.covers, Bool.and_eq_true, decide_eq_true_eq] at covered
      rcases onlyLetters run (List.mem_of_find?_eq_some found) with rfl | beyond
      · rw [if_pos covered.1]
        have same : Int.toNat (character.toNat + (-32)) = character.toNat - 32 := by
          omega
        simp only [same]
      · omega

theorem toLower_toUpper_of_ascii
    (ascii : character.toNat < 128) :
    character.toUpper.toLower = character.toLower :=
  of_ascii (fun character => character.toUpper.toLower = character.toLower) (by decide) ascii

theorem isAlphanum_toUpper
    (alphanum : character.isAlphanum = true) :
    character.toUpper.isAlphanum = true :=
  of_ascii (fun character => character.isAlphanum = true → character.toUpper.isAlphanum = true)
    (by decide) (toNat_lt_of_isAlphanum alphanum) alphanum

theorem isUpper_toUpper
    (alpha : character.isAlpha = true) :
    character.toUpper.isUpper = true := by
  have alphanum := isAlphanum_iff.mpr (.inl (isAlpha_iff.mp alpha))
  exact of_ascii (fun character => character.isAlpha = true → character.toUpper.isUpper = true)
    (by decide) (toNat_lt_of_isAlphanum alphanum) alpha

theorem toUpper_of_isUpper
    (upper : character.isUpper = true) :
    character.toUpper = character := by
  have alphanum := isAlphanum_iff.mpr (.inl (.inl (isUpper_iff.mp upper)))
  exact of_ascii (fun character => character.isUpper = true → character.toUpper = character)
    (by decide) (toNat_lt_of_isAlphanum alphanum) upper

end RpcStubs.Text
