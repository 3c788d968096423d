/-
# Modem.NumberLeak -- the dialled number in the cause of a failed dial

An ATD that is not answered in time ends in an `AtTimeoutError` whose text quotes the
command, and with it the number; `_classify_dial_failure` then searches that text for the
codes of the cause map.  The error of an ATD that is answered does not name the number.

Two runs in which the modem behaves alike during ATD give the same cause if and only if it
answered, or both numbers have a 1, or neither has (`cause_ignores_number_iff`).
-/
import IsalesTelephony.Modem.SerialSteps
import IsalesTelephony.Modem.DialCause
import Mathlib.Data.List.Chain

namespace IsalesTelephony.Modem

set_option autoImplicit false

open IsalesTelephony.Theory.Transition

/-! ## A dial that fails -/

/-- Printable ASCII without letters: digits, signs, pauses and separators. -/
def PhoneNumber (number : Text) : Prop :=
  ∀ c ∈ number, (32 ≤ c.toNat ∧ c.toNat < 127) ∧ c.isAlpha = false

instance (number : Text) : Decidable (PhoneNumber number) := List.decidableBAll _ _

/-- What a modem that does not accept an ATD does: it does not answer in time, or it answers
with an error, which is also what the end of its stream is taken for. -/
inductive AtdAnswer where
  | silence
  | error (error : AtCommandError)
  deriving DecidableEq, Repr

def SendOutcome.atdAnswer : SendOutcome → Option AtdAnswer
  | .timedOut _ => some .silence
  | .raised error => some (.error error)
  | _ => none

namespace SerialAtClient

/-- In this step the ATD of a call to `number` ends so. -/
def AtdEnds (s t : SerialAtClient) (call : Nat) (number : Text) (answer : AtdAnswer) : Prop :=
  ∃ c action outcome, s.CallAt call c ∧ c.number = number ∧ s.step (.serial action) = some t ∧
    s.atClient.ends action = some (c.atd, outcome) ∧ outcome.atdAnswer = some answer

/-- `dial` has returned a stream of one event, a remote hangup with this cause. -/
def Fails (s : SerialAtClient) (call : Nat) (cause : Text) : Prop :=
  ∃ c, s.CallAt call c ∧ c.dial = .returned ∧ c.stream = .single (.remoteHangup call cause)

/-- The cause that a failed ATD gets. -/
def failureCause (number : Text) : AtdAnswer → Text
  | .silence =>
      classifyDialFailure
        ("timed out waiting for response to ".toList ++ reprText (ModemDriver.dialCommand number))
  | .error error => classifyDialFailure error.text

variable {s t : SerialAtClient} {call : Nat} {number : Text} {answer : AtdAnswer}

/-- A send that times out names its own command. -/
theorem timedOut_command {action : AtAction} {id : Nat} {command : Text} {owner : Owner}
    (wired : Wired s) (owns : s.owners[id]? = some owner)
    (ended : s.atClient.ends action = some (id, .timedOut command)) : command = owner.command := by
  have held : ∃ h, s.atClient.holder = some h ∧ h.id = id ∧ h.command = command := by
    cases action with
    | timeout =>
        obtain ⟨h, held, same⟩ := Option.map_eq_some_iff.mp ended
        obtain ⟨isId, outcome⟩ := Prod.mk.inj same
        exact ⟨h, held, isId, SendOutcome.timedOut.inj outcome⟩
    | drainFailed =>
        obtain ⟨h, -, same⟩ := Option.map_eq_some_iff.mp ended
        cases (Prod.mk.inj same).2
    | receive =>
        simp only [AtClient.ends, AtClient.outcomeOf] at ended
        split at ended
        · split at ended <;> cases (Prod.mk.inj (Option.some.inj ended)).2
        · cases ended
    | send =>
        simp only [AtClient.ends] at ended
        split at ended <;> cases ended
    | acquire =>
        simp only [AtClient.ends] at ended
        split at ended
        · split at ended <;> cases ended
        · cases ended
    | drained | cancel | aclose => cases ended
  obtain ⟨h, held, rfl, rfl⟩ := held
  obtain ⟨other, owns', same⟩ :=
    wired.commands _ (List.mem_append_left _ (wired.ordered.holder h held))
  obtain rfl := Option.some.inj (owns.symm.trans owns')
  exact same

/-- **A failed dial** returns one remote hangup. -/
theorem fails_of_atdEnds (wired : Wired s) (ends : AtdEnds s t call number answer) :
    Fails t call (failureCause number answer) := by
  obtain ⟨c, action, outcome, at_, rfl, next, ended, isAnswer⟩ := ends
  simp only [step] at next
  split at next
  · obtain ⟨a, stepped, rfl⟩ := Option.map_eq_some_iff.mp next
    have owns := wired.owned at_
    have result : ModemDriver.dialResult outcome =
        some { connected := false, hangupCause := some (failureCause c.number answer) } := by
      cases outcome with
      | timedOut command =>
          obtain rfl := Option.some.inj isAnswer
          obtain rfl := timedOut_command wired owns ended
          rfl
      | raised error =>
          obtain rfl := Option.some.inj isAnswer
          rfl
      | _ => cases isAnswer
    have settled : s.moved a = ({ s with atClient := a } : SerialAtClient).dialEnded call outcome := by
      rw [moved_eq stepped, ended]
      simp only [settle, owns]
    rw [settled]
    simp only [dialEnded, result]
    obtain ⟨c', at', -⟩ :=
      callAt_cancelPoller (s := ({ s with atClient := a } : SerialAtClient)) at_
    exact ⟨_, modify_callAt.mpr ⟨c', at', rfl⟩, by simp, by simp⟩
  · cases next

/-! ## The text of a timeout -/

/-- What `repr` writes for a character that needs no more than a backslash. -/
theorem reprChar_printable (quote : Char) {c : Char} (printable : 32 ≤ c.toNat ∧ c.toNat < 127) :
    reprChar quote c = [c] ∨ reprChar quote c = ['\\', c] := by
  unfold reprChar
  split
  · rename_i backslash
    exact .inr (by rw [backslash]; rfl)
  · split
    · rename_i isQuote
      exact .inr (by rw [isQuote])
    · have newline : c ≠ '\n' := fun same => by rw [same] at printable; exact absurd printable (by decide)
      have return_ : c ≠ '\r' := fun same => by rw [same] at printable; exact absurd printable (by decide)
      have tab : c ≠ '\t' := fun same => by rw [same] at printable; exact absurd printable (by decide)
      rw [if_neg newline, if_neg return_, if_neg tab, if_neg (by omega)]
      exact .inl rfl

theorem mem_reprBody {quote c : Char} (phone : PhoneNumber number) :
    c ∈ number.flatMap (reprChar quote) → c ∈ number ∨ c = '\\' := by
  intro member
  obtain ⟨d, listed, inside⟩ := List.mem_flatMap.mp member
  rcases reprChar_printable quote (phone d listed).1 with same | same
  · rw [same, List.mem_singleton] at inside
    exact .inl (inside ▸ listed)
  · rw [same, List.mem_pair] at inside
    rcases inside with rfl | rfl
    · exact .inr rfl
    · exact .inl listed

theorem one_mem_reprBody {quote : Char} (phone : PhoneNumber number) :
    '1' ∈ number.flatMap (reprChar quote) ↔ '1' ∈ number := by
  constructor
  · intro member
    exact (mem_reprBody phone member).resolve_right (by decide)
  · intro listed
    refine List.mem_flatMap.mpr ⟨'1', listed, ?_⟩
    rcases reprChar_printable quote (phone '1' listed).1 with same | same <;>
      rw [same] <;> simp

/-- The text of the timeout of an ATD, up to the number. -/
def timeoutHead (quote : Char) : Text :=
  "timed out waiting for response to ".toList ++ quote :: "ATD".toList

theorem timeoutText_eq (number : Text) :
    ∃ quote, (quote = '\'' ∨ quote = '"') ∧
      "timed out waiting for response to ".toList ++ reprText (ModemDriver.dialCommand number) =
        timeoutHead quote ++ (number.flatMap (reprChar quote) ++ [';', quote]) := by
  have body : ∀ quote : Char, quote = '\'' ∨ quote = '"' →
      (ModemDriver.dialCommand number).flatMap (reprChar quote) =
        "ATD".toList ++ number.flatMap (reprChar quote) ++ [';'] := by
    intro quote either
    rw [ModemDriver.dialCommand, List.flatMap_append, List.flatMap_append]
    rcases either with rfl | rfl <;> rfl
  unfold reprText timeoutHead
  dsimp only
  split
  · refine ⟨'"', .inr rfl, ?_⟩
    rw [body '"' (.inr rfl)]
    simp
  · refine ⟨'\'', .inl rfl, ?_⟩
    rw [body '\'' (.inl rfl)]
    simp

theorem toUpper_of_not_alpha {c : Char} (sign : c.isAlpha = false) : c.toUpper = c := by
  unfold Char.toUpper
  split
  · rename_i lower
    have isLower : c.isLower = true := by
      show (decide _ && decide _) = true
      simpa using lower
    have isAlpha : c.isAlpha = (c.isUpper || c.isLower) := rfl
    rw [isAlpha, isLower, Bool.or_true] at sign
    cases sign
  · rfl

/-- Behind the head there are no letters. -/
theorem timeoutTail_signs {quote c : Char} (phone : PhoneNumber number)
    (either : quote = '\'' ∨ quote = '"')
    (member : c ∈ (number.flatMap (reprChar quote) ++ [';', quote]).map Char.toUpper) :
    c.isAlpha = false := by
  obtain ⟨d, listed, rfl⟩ := List.mem_map.mp member
  have sign : d.isAlpha = false := by
    rcases List.mem_append.mp listed with inBody | atEnd
    · rcases mem_reprBody phone inBody with inNumber | rfl
      · exact (phone d inNumber).2
      · decide
    · rcases List.mem_pair.mp atEnd with rfl | rfl
      · decide
      · rcases either with rfl | rfl <;> decide
  rwa [toUpper_of_not_alpha sign]

/-- No N is followed by an O. -/
def NoNo (text : Text) : Prop := text.IsChain fun x y => ¬ (x = 'N' ∧ y = 'O')

/-- The text of the timeout has no phrase: each has a B or begins with NO. -/
theorem timeout_phraseless (phone : PhoneNumber number) :
    Phraseless ("timed out waiting for response to ".toList ++
      reprText (ModemDriver.dialCommand number)) := by
  obtain ⟨quote, either, split⟩ := timeoutText_eq number
  rw [split]
  have signs : ∀ c ∈ (number.flatMap (reprChar quote) ++ [';', quote]).map Char.toUpper,
      c.isAlpha = false := fun _ => timeoutTail_signs phone either
  have head : 'B' ∉ (timeoutHead quote).map Char.toUpper ∧
      NoNo ((timeoutHead quote).map Char.toUpper) ∧
      ((timeoutHead quote).map Char.toUpper).getLast? = some 'D' := by
    unfold NoNo
    rcases either with rfl | rfl <;> decide
  obtain ⟨noB, noNo, last⟩ := head
  have tail : NoNo ((number.flatMap (reprChar quote) ++ [';', quote]).map Char.toUpper) := by
    refine List.Pairwise.isChain (List.pairwise_of_forall_mem_list fun x inTail y _ isN => ?_)
    have sign := signs x inTail
    rw [isN.1] at sign
    exact absurd sign (by decide)
  intro entry listed names
  unfold Names at names
  rw [List.map_append] at names
  have kinds : ∀ entry ∈ causePhrases, 'B' ∈ entry.1 ∨ ['N', 'O'] <:+: entry.1 := by decide
  rcases kinds entry listed with hasB | hasNo
  · rcases List.mem_append.mp (names.subset hasB) with inHead | inTail
    · exact noB inHead
    · exact absurd (signs _ inTail) (by decide)
  · have chain : NoNo ((timeoutHead quote).map Char.toUpper ++
        (number.flatMap (reprChar quote) ++ [';', quote]).map Char.toUpper) := by
      refine List.IsChain.append noNo tail fun x isLast y _ isN => ?_
      rw [last] at isLast
      obtain rfl := Option.some.inj isLast
      exact absurd isN.1 (by decide)
    have both := List.IsChain.infix chain (hasNo.trans names)
    simp at both

/-- A number without an answer: rejected if it has a 1, and out of order otherwise. -/
theorem failureCause_silence (phone : PhoneNumber number) :
    failureCause number .silence =
      if '1' ∈ number then "call_rejected".toList else "network_out_of_order".toList := by
  have one : '1' ∈ "timed out waiting for response to ".toList ++
      reprText (ModemDriver.dialCommand number) ↔ '1' ∈ number := by
    obtain ⟨quote, either, split⟩ := timeoutText_eq number
    have head : '1' ∉ timeoutHead quote ∧ '1' ∉ [';', quote] := by
      rcases either with rfl | rfl <;> decide
    rw [split, List.mem_append, List.mem_append, one_mem_reprBody phone]
    exact ⟨fun found => (found.resolve_left head.1).resolve_right head.2, fun found => .inr (.inl found)⟩
  unfold failureCause
  rw [classify_without_phrase (timeout_phraseless phone)]
  exact if_congr one rfl rfl

/-! ## Main result -/

theorem wired_of_reachable (run : Reachable step Free {} s) : Wired s :=
  run.invariant (P := Wired) wired_init fun _ _ _ wired _ next => wired_step wired next

/-- **When the cause ignores the number.**  Two calls, in any two runs, whose ATDs the modem
treats alike fail with one remote hangup each, and with the same cause if and only if the
modem answered, or both numbers have a 1, or neither has. -/
theorem cause_ignores_number_iff {s₁ t₁ s₂ t₂ : SerialAtClient} {call₁ call₂ : Nat}
    {number₁ number₂ : Text} {answer : AtdAnswer}
    (run₁ : Reachable step Free {} s₁) (run₂ : Reachable step Free {} s₂)
    (phone₁ : PhoneNumber number₁) (phone₂ : PhoneNumber number₂)
    (ends₁ : AtdEnds s₁ t₁ call₁ number₁ answer) (ends₂ : AtdEnds s₂ t₂ call₂ number₂ answer) :
    ∃ cause₁ cause₂, Fails t₁ call₁ cause₁ ∧ Fails t₂ call₂ cause₂ ∧
      (cause₁ = cause₂ ↔ answer ≠ .silence ∨ ('1' ∈ number₁ ↔ '1' ∈ number₂)) := by
  refine ⟨_, _, fails_of_atdEnds (wired_of_reachable run₁) ends₁,
    fails_of_atdEnds (wired_of_reachable run₂) ends₂, ?_⟩
  cases answer with
  | error => exact ⟨fun _ => .inl nofun, fun _ => rfl⟩
  | silence =>
      rw [failureCause_silence phone₁, failureCause_silence phone₂]
      have differ : "call_rejected".toList ≠ "network_out_of_order".toList := by decide
      by_cases one₁ : '1' ∈ number₁ <;> by_cases one₂ : '1' ∈ number₂
      · simp [one₁, one₂]
      · simp only [one₁, one₂, if_true, if_false, differ]
        simp
      · simp only [one₁, one₂, if_true, if_false, differ.symm]
        simp
      · simp [one₁, one₂]

/-! ## Poles -/

/-- A call to the number whose ATD is written and not answered. -/
def dialling (number : Text) : List SerialAction :=
  [.dial number, .serial .acquire, .serial .drained]

def mobile : Text := "13800138000".toList

def landline : Text := "02055566666".toList

theorem mobile_dials : (run step {} (dialling mobile)).isSome = true := by decide

theorem landline_dials : (run step {} (dialling landline)).isSome = true := by decide

theorem mobile_times_out :
    (((run step {} (dialling mobile)).get mobile_dials).step (.serial .timeout)).isSome = true := by
  decide

theorem landline_times_out :
    (((run step {} (dialling landline)).get landline_dials).step (.serial .timeout)).isSome = true := by
  decide

theorem mobile_unanswered : AtdEnds ((run step {} (dialling mobile)).get mobile_dials)
    (Option.get _ mobile_times_out) 0 mobile .silence :=
  ⟨_, .timeout, _, rfl, rfl, (Option.some_get _).symm, rfl, rfl⟩

theorem landline_unanswered : AtdEnds ((run step {} (dialling landline)).get landline_dials)
    (Option.get _ landline_times_out) 0 landline .silence :=
  ⟨_, .timeout, _, rfl, rfl, (Option.some_get _).symm, rfl, rfl⟩

theorem mobile_and_landline : ∃ cause₁ cause₂, Fails (Option.get _ mobile_times_out) 0 cause₁ ∧
    Fails (Option.get _ landline_times_out) 0 cause₂ ∧
      (cause₁ = cause₂ ↔ AtdAnswer.silence ≠ .silence ∨ ('1' ∈ mobile ↔ '1' ∈ landline)) :=
  cause_ignores_number_iff (reachable_get mobile_dials) (reachable_get landline_dials) (by decide)
    (by decide) mobile_unanswered landline_unanswered

/-- **The number decides.**  Neither call is answered in time; the mobile number has a 1, and
the landline has none. -/
theorem number_decides_cause :
    ¬ ∀ (s₁ t₁ s₂ t₂ : SerialAtClient) (call₁ call₂ : Nat) (number₁ number₂ : Text)
      (answer : AtdAnswer) (cause₁ cause₂ : Text),
      Reachable step Free {} s₁ → Reachable step Free {} s₂ →
        PhoneNumber number₁ → PhoneNumber number₂ →
          AtdEnds s₁ t₁ call₁ number₁ answer → AtdEnds s₂ t₂ call₂ number₂ answer →
            Fails t₁ call₁ cause₁ → Fails t₂ call₂ cause₂ → cause₁ = cause₂ := by
  intro claim
  have run₁ := reachable_get mobile_dials
  have run₂ := reachable_get landline_dials
  have same := claim _ _ _ _ 0 0 mobile landline .silence _ _ run₁ run₂ (by decide) (by decide)
    mobile_unanswered landline_unanswered
    (fails_of_atdEnds (wired_of_reachable run₁) mobile_unanswered)
    (fails_of_atdEnds (wired_of_reachable run₂) landline_unanswered)
  rw [failureCause_silence (by decide), failureCause_silence (by decide)] at same
  exact absurd same (by decide)

end SerialAtClient

end IsalesTelephony.Modem
