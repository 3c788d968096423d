/-
# Modem.DialCause -- which entry of the cause map a message finds

`_classify_dial_failure` searches the message for each token of `HANGUP_CAUSE_MAP` in turn.
The code "1" comes before the others, so a message without a cause phrase is a rejection if
it has a 1 anywhere, and out of order if it has none (`classify_without_phrase`): the codes
16 to 19, 31 and 41 are never found.  A code is classified as the map says if and only if it
is 1 or has no digit 1 (`codes_respected_iff`).
-/
import IsalesTelephony.Modem.Drivers
import IsalesTelephony.Theory.Decimal

namespace IsalesTelephony.Modem

set_option autoImplicit false

open IsalesTelephony.Theory

/-! ## What a message holds -/

/-- The entries of `HANGUP_CAUSE_MAP` that are phrases. -/
def causePhrases : List (Text × Text) := hangupCauseMap.take 4

/-- The entries that are cause numbers. -/
def causeCodes : List (Text × Text) := hangupCauseMap.drop 4

/-- The message contains the token, in any case. -/
def Names (message token : Text) : Prop := token <:+: message.map Char.toUpper

instance (message token : Text) : Decidable (Names message token) :=
  inferInstanceAs (Decidable (_ <:+: _))

/-- The message contains none of the phrases. -/
def Phraseless (message : Text) : Prop := ∀ entry ∈ causePhrases, ¬ Names message entry.1

instance (message : Text) : Decidable (Phraseless message) := List.decidableBAll _ _

/-- The message has no digits. -/
def Digitless (message : Text) : Prop := ∀ c ∈ message, c.isDigit = false

instance (message : Text) : Decidable (Digitless message) := List.decidableBAll _ _

/-- The message has one maximal run of digits, and none of the phrases. -/
structure OneCode (message run : Text) : Prop where
  split : ∃ before after, message = before ++ run ++ after ∧ Digitless before ∧ Digitless after
  digits : ∀ c ∈ run, c.isDigit = true
  some_ : run ≠ []
  phraseless : Phraseless message

/-- The message has no digits, and one of the phrases. -/
structure OnePhrase (message : Text) (entry : Text × Text) : Prop where
  digitless : Digitless message
  listed : entry ∈ causePhrases
  names : Names message entry.1
  only : ∀ other ∈ causePhrases, Names message other.1 → other = entry

/-- The cause of a cause number: the map's, or `network_out_of_order`. -/
def codeCause (code : Nat) : Text :=
  (hangupCauseMap.lookup (Nat.toDigits 10 code)).getD "network_out_of_order".toList

/-- The message is classified by the code or the phrase that it holds. -/
structure Respected (message : Text) : Prop where
  code : ∀ run, OneCode message run → classifyDialFailure message = codeCause (Decimal.value run)
  phrase : ∀ entry, OnePhrase message entry → classifyDialFailure message = entry.2

/-! ## The search -/

variable {message run : Text}

/-- What upper case makes a digit was that digit, and digits stay. -/
theorem toUpper_isDigit {c : Char} (digit : c.toUpper.isDigit = true ∨ c.isDigit = true) :
    c.toUpper = c := by
  unfold Char.toUpper at digit ⊢
  split
  · rename_i lower
    simp only [Char.isDigit, UInt32.le_iff_toNat_le] at digit lower
    rw [dif_pos (by simpa [UInt32.le_iff_toNat_le] using lower)] at digit
    simp at digit lower
    omega
  · rfl

/-- Upper case leaves digits as they are. -/
theorem mem_upper_of_digit (message : Text) {c : Char} (digit : c.isDigit = true) :
    c ∈ message.map Char.toUpper ↔ c ∈ message := by
  constructor
  · intro member
    obtain ⟨d, listed, rfl⟩ := List.mem_map.mp member
    rwa [toUpper_isDigit (.inl digit)]
  · intro member
    exact List.mem_map.mpr ⟨c, member, toUpper_isDigit (.inr digit)⟩

theorem causeMap_split : hangupCauseMap =
    causePhrases ++ ("1".toList, "call_rejected".toList) :: causeCodes.drop 1 := rfl

/-- Without a phrase the first code decides: the others have a 1, or the default cause. -/
theorem classify_without_phrase (phraseless : Phraseless message) :
    classifyDialFailure message =
      if '1' ∈ message then "call_rejected".toList else "network_out_of_order".toList := by
  have noPhrase : causePhrases.find? (fun entry => entry.1 <:+: message.map Char.toUpper) = none :=
    List.find?_eq_none.mpr fun entry listed found =>
      phraseless entry listed (of_decide_eq_true found)
  have one : "1".toList <:+: message.map Char.toUpper ↔ '1' ∈ message := by
    rw [← mem_upper_of_digit message (by decide : '1'.isDigit = true)]
    exact List.singleton_infix_iff '1' _
  unfold classifyDialFailure
  rw [causeMap_split, List.find?_append, noPhrase, Option.none_or, List.find?_cons]
  by_cases first : '1' ∈ message
  · rw [decide_eq_true (one.mpr first), if_pos first]
  · rw [decide_eq_false fun found => first (one.mp found), if_neg first]
    dsimp only
    split
    · rename_i entry found
      have later : ∀ entry ∈ causeCodes.drop 1,
          '1' ∈ entry.1 ∨ entry.2 = "network_out_of_order".toList := by decide
      rcases later entry (List.mem_of_find?_eq_some found) with hasOne | same
      · have inside : entry.1 <:+: message.map Char.toUpper := by simpa using List.find?_some found
        have inMessage := inside.subset hasOne
        rw [mem_upper_of_digit _ (by decide)] at inMessage
        exact absurd inMessage first
      · exact same
    · rfl

/-! ## Codes -/

/-- The causes of the codes without a 1 are all the default one, and only 1 is a rejection. -/
theorem codeCause_cases (code : Nat) :
    (codeCause code = "network_out_of_order".toList ∨ '1' ∈ Nat.toDigits 10 code) ∧
      (codeCause code = "call_rejected".toList → code = 1) := by
  have entries : ∀ entry ∈ hangupCauseMap,
      ('1' ∈ entry.1 ∨ entry.2 = "network_out_of_order".toList ∨ ¬ entry.1.all Char.isDigit) ∧
        (entry.2 = "call_rejected".toList → entry.1 = "1".toList) := by decide
  unfold codeCause
  cases found : hangupCauseMap.lookup (Nat.toDigits 10 code) with
  | none => exact ⟨.inl rfl, fun rejected => absurd rejected (by decide)⟩
  | some cause =>
      have listed : (Nat.toDigits 10 code, cause) ∈ hangupCauseMap := by
        obtain ⟨before, after, split, -⟩ := List.lookup_eq_some_iff.mp found
        rw [split]
        exact List.mem_append_right _ List.mem_cons_self
      obtain ⟨kinds, rejects⟩ := entries _ listed
      refine ⟨?_, fun rejected => Decimal.toDigits_inj (rejects rejected)⟩
      rcases kinds with one | default_ | letters
      · exact .inr one
      · exact .inl default_
      · refine absurd (List.all_eq_true.mpr fun c member => ?_) letters
        exact Nat.isDigit_of_mem_toDigits (by decide) (by decide) member

theorem OneCode.mem_iff (oneCode : OneCode message run) : '1' ∈ message ↔ '1' ∈ run := by
  obtain ⟨before, after, rfl, noneBefore, noneAfter⟩ := oneCode.split
  have digit : '1'.isDigit = true := by decide
  constructor
  · intro member
    rcases List.mem_append.mp member with front | back
    · rcases List.mem_append.mp front with isBefore | inRun
      · exact absurd (noneBefore _ isBefore) (by simp [digit])
      · exact inRun
    · exact absurd (noneAfter _ back) (by simp [digit])
  · intro inRun
    exact List.mem_append_left _ (List.mem_append_right _ inRun)

theorem classify_oneCode_iff (oneCode : OneCode message run) :
    classifyDialFailure message = codeCause (Decimal.value run) ↔
      ('1' ∈ run → Decimal.value run = 1) := by
  obtain ⟨kinds, rejects⟩ := codeCause_cases (Decimal.value run)
  rw [classify_without_phrase oneCode.phraseless]
  by_cases one : '1' ∈ run
  · rw [if_pos (oneCode.mem_iff.mpr one)]
    refine ⟨fun same _ => rejects same.symm, fun isOne => ?_⟩
    rw [isOne one]
    decide
  · rw [if_neg fun inMessage => one (oneCode.mem_iff.mp inMessage)]
    refine ⟨fun _ inRun => absurd inRun one, fun _ => ?_⟩
    rcases kinds with default_ | inDigits
    · exact default_.symm
    · exact absurd (Decimal.mem_of_mem_toDigits oneCode.digits inDigits (by decide)) one

/-! ## Phrases -/

/-- A message without digits is classified by the only phrase it holds. -/
theorem classify_onePhrase {entry : Text × Text} (onePhrase : OnePhrase message entry) :
    classifyDialFailure message = entry.2 := by
  have listed : entry ∈ hangupCauseMap := List.mem_of_mem_take onePhrase.listed
  unfold classifyDialFailure
  split
  · rename_i found_ found
    have names : Names message found_.1 := by simpa [Names] using List.find?_some found
    have inMap := List.mem_of_find?_eq_some found
    have kinds : ∀ e ∈ hangupCauseMap, e ∈ causePhrases ∨ e.1.any Char.isDigit = true := by decide
    rcases kinds found_ inMap with isPhrase | hasDigit
    · rw [onePhrase.only found_ isPhrase names]
    · obtain ⟨c, inToken, digit⟩ := List.any_eq_true.mp hasDigit
      have inMessage := (mem_upper_of_digit _ digit).mp (names.subset inToken)
      exact absurd (onePhrase.digitless c inMessage) (by simp [digit])
  · rename_i notFound
    exact absurd (decide_eq_true onePhrase.names) (List.find?_eq_none.mp notFound entry listed)

/-! ## Main result -/

/-- **When a cause code is respected.**  A message with one code and no phrase, or with one
phrase and no digits, is classified by it, if and only if the code is 1 or has no digit 1. -/
theorem codes_respected_iff (message : Text) :
    Respected message ↔ ∀ run, OneCode message run → '1' ∈ run → Decimal.value run = 1 :=
  ⟨fun respected run oneCode => (classify_oneCode_iff oneCode).mp (respected.code run oneCode),
    fun codes =>
      ⟨fun run oneCode => (classify_oneCode_iff oneCode).mpr (codes run oneCode),
        fun _ onePhrase => classify_onePhrase onePhrase⟩⟩

/-! ## Poles -/

/-- **Normal clearing is a rejection.**  The code 16 has a 1. -/
theorem normal_clearing_misread : ¬ ∀ message, Respected message := by
  intro claim
  have oneCode : OneCode "+CME ERROR: 16".toList "16".toList := by
    have digits : "16".toList.all Char.isDigit = true := by decide
    exact ⟨⟨"+CME ERROR: ".toList, [], by decide, by decide, nofun⟩, List.all_eq_true.mp digits,
      by decide, by decide⟩
  have code := (claim _).code _ oneCode
  exact absurd code (by decide)

end IsalesTelephony.Modem
