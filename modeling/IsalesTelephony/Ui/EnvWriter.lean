/-
# Ui.EnvWriter -- the edge's env file

`ui/env_writer.py`: `read_env` parses the file into a dictionary, and
`write_token_and_endpoint` writes that dictionary back with two keys changed.

A text is the list of its characters, and a file its decoded text; `None` is a file that is
not there.  Reading turns each kind of line end into a newline, writing turns a newline into
that of the system.

The reader takes the quotes from a value and the writer puts none around it.  So a value
comes back as it was exactly if it has no blanks at its ends and no quotes of its own
(`reread_eq_iff`).
-/
import IsalesTelephony.Theory.Dict
import IsalesTelephony.Theory.Strip
import Mathlib.Data.Bool.AllAny

namespace IsalesTelephony.Ui.EnvWriter

set_option autoImplicit false

open IsalesTelephony.Theory
open IsalesTelephony.Theory.Strip (spaces isSpace)

abbrev Text := List Char

/-- Dictionaries compare their keys by equality. -/
local instance : BEq Text := instBEqOfDecidableEq

/-! ## Characters -/

/-- `s.strip()`. -/
def strip (s : Text) : Text := Strip.strip isSpace s

/-- Where `str.splitlines()` ends a line. -/
def lineBreaks : List Nat := [0xa, 0xb, 0xc, 0xd, 0x1c, 0x1d, 0x1e, 0x85, 0x2028, 0x2029]

def isLineBreak (c : Char) : Bool := lineBreaks.contains c.toNat

/-- The zeros of the decimal digits of Unicode; nine more follow each of them. -/
def zeros : List Nat :=
  [0x30, 0x660, 0x6f0, 0x7c0, 0x966, 0x9e6, 0xa66, 0xae6, 0xb66, 0xbe6, 0xc66, 0xce6, 0xd66,
    0xde6, 0xe50, 0xed0, 0xf20, 0x1040, 0x1090, 0x17e0, 0x1810, 0x1946, 0x19d0, 0x1a80,
    0x1a90, 0x1b50, 0x1bb0, 0x1c40, 0x1c50, 0xa620, 0xa8d0, 0xa900, 0xa9d0, 0xa9f0, 0xaa50,
    0xabf0, 0xff10, 0x104a0, 0x10d30, 0x11066, 0x110f0, 0x11136, 0x111d0, 0x112f0, 0x11450,
    0x114d0, 0x11650, 0x116c0, 0x11730, 0x118e0, 0x11950, 0x11c50, 0x11d50, 0x11da0, 0x16a60,
    0x16ac0, 0x16b50, 0x1d7ce, 0x1d7d8, 0x1d7e2, 0x1d7ec, 0x1d7f6, 0x1e140, 0x1e2f0, 0x1e950,
    0x1fbf0]

/-- `\d`. -/
def isDecimal (c : Char) : Bool := zeros.any fun z => z ≤ c.toNat && c.toNat ≤ z + 9

/-! ## Files -/

/-- What text mode reads: `\r\n` and `\r` are newlines.  The flag says that a `\r` came last. -/
def universalNewlines : Bool → Text → Text
  | _, [] => []
  | afterReturn, c :: rest =>
      if c = '\r' then '\n' :: universalNewlines true rest
      else if c = '\n' ∧ afterReturn then universalNewlines false rest
      else c :: universalNewlines false rest

/-- `path.read_text`. -/
def readText (content : Text) : Text := universalNewlines false content

/-- The systems, by `os.linesep`. -/
inductive Os where
  | posix
  | windows
  deriving DecidableEq, Repr

def Os.linesep : Os → Text
  | .posix => ['\n']
  | .windows => ['\r', '\n']

/-- `tmp.write_text`. -/
def writeText (os : Os) (text : Text) : Text := text.flatMap fun c => if c = '\n' then os.linesep else [c]

/-- `text.splitlines()`, in a line that has begun; the flag says that a `\r` ended the last. -/
def splitlinesFrom : Text → Bool → Text → List Text
  | line, _, [] => if line = [] then [] else [line]
  | line, afterReturn, c :: rest =>
      if c = '\n' ∧ afterReturn then splitlinesFrom line false rest
      else if isLineBreak c then line :: splitlinesFrom [] (c = '\r') rest
      else splitlinesFrom (line ++ [c]) false rest

def splitlines (text : Text) : List Text := splitlinesFrom [] false text

/-! ## Validation -/

inductive EnvFileError where
  /-- `token is empty` -/
  | tokenEmpty
  /-- `token too short (min 16 chars, got n)` -/
  | tokenTooShort (length : Nat)
  /-- `token too long (max 512 chars)` -/
  | tokenTooLong
  /-- `token contains disallowed characters; allowed: A-Z a-z 0-9 . _ - + = / :` -/
  | tokenDisallowed
  /-- `endpoint is empty` -/
  | endpointEmpty
  /-- `endpoint doesn't look like host[:port] or grpcs://host[:port]` -/
  | endpointMalformed (endpoint : Text)
  deriving DecidableEq, Repr

/-- `_TOKEN_MIN_LEN`. -/
def tokenMinLen : Nat := 16

/-- `_TOKEN_MAX_LEN`. -/
def tokenMaxLen : Nat := 512

/-- A character of `_TOKEN_ALLOWED`. -/
def tokenAllowed (c : Char) : Bool := c.isAlphanum || "._-+=/:".toList.contains c

def validateToken (token : Text) : Except EnvFileError Unit :=
  let token := strip token
  if token = [] then .error .tokenEmpty
  else if token.length < tokenMinLen then .error (.tokenTooShort token.length)
  else if tokenMaxLen < token.length then .error .tokenTooLong
  else if token.all tokenAllowed then .ok () else .error .tokenDisallowed

/-- A character of the host in `_ENDPOINT_RE`. -/
def hostAllowed (c : Char) : Bool := c.isAlphanum || c = '.' || c = '-'

/-- `[A-Za-z0-9.\-]+(?::\d{1,5})?$`; nothing of a stripped text is behind its last line. -/
def hostPort (s : Text) : Bool :=
  s.takeWhile hostAllowed ≠ [] &&
    match s.dropWhile hostAllowed with
    | [] => true
    | c :: port => c = ':' && port.all isDecimal && 1 ≤ port.length && port.length ≤ 5

/-- `_ENDPOINT_RE`: without a scheme, or behind one. -/
def endpointRe (s : Text) : Bool :=
  hostPort s || ("grpc://".toList.isPrefixOf s && hostPort (s.drop 7)) ||
    ("grpcs://".toList.isPrefixOf s && hostPort (s.drop 8))

def validateEndpoint (endpoint : Text) : Except EnvFileError Unit :=
  let endpoint := strip endpoint
  if endpoint = [] then .error .endpointEmpty
  else if endpointRe endpoint then .ok () else .error (.endpointMalformed endpoint)

/-! ## The reader and the writer -/

/-- The key and the value of a line, quotes and all; comments, blank lines and lines without
`=` have none. -/
def assignment (raw : Text) : Option (Text × Text) :=
  let line := strip raw
  if line = [] ∨ line.head? = some '#' then none
  else if '=' ∈ line then
    some (strip (line.takeWhile (· ≠ '=')), strip ((line.dropWhile (· ≠ '=')).drop 1))
  else none

/-- The assignments of a file, in their order. -/
def assignments (content : Text) : List (Text × Text) :=
  (splitlines (readText content)).filterMap assignment

/-- Starts and ends with the same quote, which may be one character. -/
def quoted (value : Text) : Bool :=
  (value.head? = some '"' && value.getLast? = some '"') ||
    (value.head? = some '\'' && value.getLast? = some '\'')

/-- `value[1:-1]`. -/
def inside (value : Text) : Text := (value.drop 1).dropLast

def unquote (value : Text) : Text := if quoted value then inside value else value

def readEnv : Option Text → List (Text × Text)
  | none => []
  | some content => Dict.fill [] ((assignments content).map fun a => (a.1, unquote a.2))

def tokenKey : Text := "ISALES_EDGE_DEVICE_TOKEN".toList

def endpointKey : Text := "ISALES_CLOUD_GRPC_ENDPOINT".toList

/-- `f"{k}={v}"`. -/
def bodyLine (entry : Text × Text) : Text := entry.1 ++ '=' :: entry.2

/-- `"\n".join(body_lines) + "\n"`, of one line at least. -/
def body (current : List (Text × Text)) : Text := current.flatMap fun entry => bodyLine entry ++ ['\n']

/-- The dictionary that is written. -/
def current (token endpoint : Text) (file : Option Text) : List (Text × Text) :=
  Dict.put (Dict.put (readEnv file) tokenKey (strip token)) endpointKey (strip endpoint)

/-- The file that is left. -/
def writeTokenAndEndpoint (os : Os) (token endpoint : Text) (file : Option Text) :
    Except EnvFileError Text :=
  validateToken token >>= fun _ => validateEndpoint endpoint >>= fun _ =>
    .ok (writeText os (body (current token endpoint file)))

/-! ## Lines -/

variable {content value : Text} {c : Char}

/-- No character of it ends a line. -/
def Unbroken (line : Text) : Prop := ∀ c ∈ line, isLineBreak c = false

theorem unbroken_nil : Unbroken [] := List.forall_mem_nil _

theorem unbroken_append {a b : Text} (first : Unbroken a) (second : Unbroken b) : Unbroken (a ++ b) :=
  fun c member => (List.mem_append.mp member).elim (first c) (second c)

theorem newline_breaks : isLineBreak '\n' = true := by decide

theorem return_breaks : isLineBreak '\r' = true := by decide

/-- A line up to its newline. -/
theorem splitlinesFrom_line {line : Text} (unbroken : Unbroken line) (begun rest : Text) :
    splitlinesFrom begun false (line ++ '\n' :: rest) = (begun ++ line) :: splitlinesFrom [] false rest := by
  induction line generalizing begun with
  | nil => simp [splitlinesFrom, newline_breaks]
  | cons c more ih =>
      have inLine : isLineBreak c = false := unbroken c List.mem_cons_self
      rw [List.cons_append, splitlinesFrom, if_neg (by simp), if_neg (by simp [inLine]),
        ih (fun c member => unbroken c (List.mem_cons_of_mem _ member)), List.append_assoc]
      rfl

theorem splitlines_lines {lines : List Text} (unbroken : ∀ line ∈ lines, Unbroken line) :
    splitlines (lines.flatMap fun line => line ++ ['\n']) = lines := by
  induction lines with
  | nil => rfl
  | cons line rest ih =>
      obtain ⟨first, later⟩ := List.forall_mem_cons.mp unbroken
      have split := splitlinesFrom_line first [] (rest.flatMap fun line => line ++ ['\n'])
      rw [List.nil_append] at split
      rw [List.flatMap_cons, List.append_assoc, List.singleton_append, splitlines, split]
      exact congrArg (line :: ·) (ih later)

theorem unbroken_of_splitlinesFrom {text begun line : Text} {afterReturn : Bool}
    (unbroken : Unbroken begun) (member : line ∈ splitlinesFrom begun afterReturn text) :
    Unbroken line := by
  induction text generalizing begun afterReturn with
  | nil =>
      simp only [splitlinesFrom] at member
      split at member
      · cases member
      · obtain rfl := List.mem_singleton.mp member
        exact unbroken
  | cons c rest ih =>
      simp only [splitlinesFrom] at member
      split at member
      · exact ih unbroken member
      · split at member
        · rcases List.mem_cons.mp member with rfl | later
          · exact unbroken
          · exact ih unbroken_nil later
        · rename_i solid
          refine ih (unbroken_append unbroken fun d one => ?_) member
          obtain rfl := List.mem_singleton.mp one
          simpa using solid

/-- What is written is read back, on each system. -/
theorem readText_writeText (os : Os) {text : Text} (plain : '\r' ∉ text) :
    readText (writeText os text) = text := by
  unfold readText
  induction text with
  | nil => rfl
  | cons c rest ih =>
      simp only [List.mem_cons, not_or] at plain
      obtain ⟨other, later⟩ := plain
      have ih := ih later
      rw [writeText, List.flatMap_cons]
      by_cases newline : c = '\n'
      · subst newline
        cases os
        · simpa [Os.linesep, universalNewlines, writeText] using ih
        · simpa [Os.linesep, universalNewlines, writeText] using ih
      · simpa [newline, universalNewlines, Ne.symm other, writeText] using ih

/-! ## Entries -/

/-- A key and a value that a line of the file can give. -/
structure Entry (entry : Text × Text) : Prop where
  stripped : strip entry.1 = entry.1
  unequal : '=' ∉ entry.1
  uncommented : entry.1.head? ≠ some '#'
  unbroken : Unbroken (bodyLine entry)

theorem Entry.key_unbroken {entry : Text × Text} (ok : Entry entry) : Unbroken entry.1 :=
  fun c member => ok.unbroken c (List.mem_append_left _ member)

theorem Entry.value_unbroken {entry : Text × Text} (ok : Entry entry) : Unbroken entry.2 :=
  fun c member => ok.unbroken c (List.mem_append_right _ (List.mem_cons_of_mem _ member))

theorem equals_unbroken : isLineBreak '=' = false := by decide

theorem equals_solid : isSpace '=' = false := by decide

theorem bodyLine_unbroken {entry : Text × Text} (key : Unbroken entry.1) (value : Unbroken entry.2) :
    Unbroken (bodyLine entry) := by
  refine unbroken_append key fun c member => ?_
  rcases List.mem_cons.mp member with rfl | member
  · exact equals_unbroken
  · exact value c member

/-- Another value in one line is as good. -/
theorem Entry.withValue {entry : Text × Text} (ok : Entry entry) {value : Text}
    (unbroken : Unbroken value) : Entry (entry.1, value) :=
  { ok with unbroken := bodyLine_unbroken ok.key_unbroken unbroken }

/-- The line that is written for an entry gives its key back, and its value without the blanks
around it. -/
theorem assignment_bodyLine {entry : Text × Text} (ok : Entry entry) :
    assignment (bodyLine entry) = some (entry.1, strip entry.2) := by
  obtain ⟨key, value⟩ := entry
  have line : strip (bodyLine (key, value)) = key ++ '=' :: value.rdropWhile isSpace :=
    Strip.strip_append_cons ok.stripped equals_solid
  have unequal : ∀ c ∈ key, (decide (c ≠ '=')) = true := fun c member => decide_eq_true fun same =>
    ok.unequal (same ▸ member)
  have start : (key ++ '=' :: value.rdropWhile isSpace).head? ≠ some '#' := by
    cases key with
    | nil => simp
    | cons head rest => simpa using ok.uncommented
  have key_ : (key ++ '=' :: value.rdropWhile isSpace).takeWhile (· ≠ '=') = key := by
    rw [List.takeWhile_append_of_pos unequal, List.takeWhile_cons_of_neg (by simp), List.append_nil]
  have value_ : (key ++ '=' :: value.rdropWhile isSpace).dropWhile (· ≠ '=') =
      '=' :: value.rdropWhile isSpace := by
    rw [List.dropWhile_append_of_pos unequal, List.dropWhile_cons_of_neg (by simp)]
  have rest : strip (value.rdropWhile isSpace) = strip value := Strip.strip_rdropWhile _ _
  have stripped : strip key = key := ok.stripped
  rw [assignment]
  simp only [line, start, key_, value_, List.drop_one, List.tail_cons, rest, stripped]
  simp

/-- What a line gives can be written. -/
theorem entry_of_assignment {raw : Text} {entry : Text × Text} (unbroken : Unbroken raw)
    (gives : assignment raw = some entry) : Entry entry ∧ strip entry.2 = entry.2 := by
  simp only [assignment] at gives
  split at gives
  · cases gives
  rename_i full
  split at gives
  · obtain rfl := Option.some.inj gives
    have line : strip (strip raw) = strip raw := Strip.strip_strip _ _
    have starts : strip ((strip raw).takeWhile (· ≠ '=')) <+: strip raw :=
      Strip.strip_prefix line (List.takeWhile_prefix _)
    have inRaw : ∀ c ∈ strip raw, isLineBreak c = false := fun c member =>
      unbroken c (Strip.mem_of_mem_strip member)
    refine ⟨{ stripped := Strip.strip_strip _ _, unequal := ?_, uncommented := ?_, unbroken := ?_ },
      Strip.strip_strip _ _⟩
    · intro member
      have taken := List.mem_takeWhile_imp (Strip.mem_of_mem_strip member)
      simp at taken
    · intro hash
      refine full (.inr ?_)
      obtain ⟨more, whole⟩ := starts
      rw [← whole, List.head?_append, hash]
      rfl
    · refine bodyLine_unbroken (fun c member => ?_) fun c member => ?_
      · exact inRaw c (starts.mem member)
      · have rest := Strip.mem_of_mem_strip member
        exact inRaw c ((List.dropWhile_suffix _).mem (List.mem_of_mem_drop rest))
  · cases gives

theorem entry_of_assignments {entry : Text × Text} (member : entry ∈ assignments content) :
    Entry entry ∧ strip entry.2 = entry.2 := by
  obtain ⟨line, inText, gives⟩ := List.mem_filterMap.mp member
  exact entry_of_assignment (unbroken_of_splitlinesFrom unbroken_nil inText) gives

/-- Reading a dictionary that was written: each value loses the blanks around it and then its
quotes. -/
theorem readEnv_written (os : Os) {entries : List (Text × Text)} (distinct : Dict.Distinct entries)
    (ok : ∀ entry ∈ entries, Entry entry) :
    readEnv (some (writeText os (body entries))) =
      entries.map fun entry => (entry.1, unquote (strip entry.2)) := by
  have lines : ∀ line ∈ entries.map bodyLine, Unbroken line := by
    intro line member
    obtain ⟨entry, inEntries, rfl⟩ := List.mem_map.mp member
    exact (ok entry inEntries).unbroken
  have text : body entries = (entries.map bodyLine).flatMap fun line => line ++ ['\n'] := by
    simp [body, List.flatMap_map]
  have plain : '\r' ∉ body entries := by
    rw [text]
    intro member
    obtain ⟨line, inLines, inLine⟩ := List.mem_flatMap.mp member
    rcases List.mem_append.mp inLine with inLine | newline
    · have := lines line inLines _ inLine
      rw [return_breaks] at this
      cases this
    · simp at newline
  have read : assignments (writeText os (body entries)) =
      entries.map fun entry => (entry.1, strip entry.2) := by
    rw [assignments, readText_writeText os plain, text, splitlines_lines lines, List.filterMap_map]
    rw [← List.filterMap_eq_map]
    exact List.filterMap_congr fun entry member => assignment_bodyLine (ok entry member)
  have apart : Dict.Distinct (entries.map fun entry => (entry.1, unquote (strip entry.2))) := by
    simpa [Dict.Distinct, Function.comp_def] using distinct
  rw [readEnv, read, List.map_map]
  exact Dict.fill_append (d := []) apart

/-! ## Values that come back -/

/-- Without blanks at its ends and without quotes of its own. -/
structure Stable (value : Text) : Prop where
  stripped : strip value = value
  bare : quoted value = false

theorem length_inside_lt (isQuoted : quoted value = true) : (inside value).length < value.length := by
  cases value with
  | nil => cases isQuoted
  | cons head rest =>
      simp only [inside, List.drop_one, List.tail_cons, List.length_dropLast, List.length_cons]
      omega

theorem length_unquote_le (value : Text) : (unquote value).length ≤ value.length := by
  unfold unquote
  split
  · exact Nat.le_of_lt (length_inside_lt ‹_›)
  · exact Nat.le_refl _

/-- A value that was written comes back as it was if it is stable, and only then. -/
theorem reread_eq_iff : unquote (strip value) = value ↔ Stable value := by
  constructor
  · intro same
    have kept : strip value = value := by
      refine (Strip.strip_sublist isSpace value).eq_of_length_le ?_
      calc value.length = (unquote (strip value)).length := by rw [same]
        _ ≤ (strip value).length := length_unquote_le _
    refine ⟨kept, (Bool.not_eq_true _).mp fun isQuoted => ?_⟩
    have shorter := length_inside_lt isQuoted
    rw [kept, unquote, if_pos isQuoted] at same
    rw [same] at shorter
    exact Nat.lt_irrefl _ shorter
  · rintro ⟨stripped, bare⟩
    rw [stripped, unquote, bare, if_neg Bool.false_ne_true]

/-- Neither a blank nor a quote. -/
def Bare (c : Char) : Prop := c.toNat ∉ spaces ∧ c ≠ '"' ∧ c ≠ '\''

theorem bare_of_allowed {allowed : Char → Bool}
    (bare : ∀ n ∈ 0x22 :: 0x27 :: spaces, allowed (Char.ofNat n) = false) (ok : allowed c = true) :
    Bare c := by
  have apart : c.toNat ∉ 0x22 :: 0x27 :: spaces := by
    intro member
    have refused := bare _ member
    rw [Char.ofNat_toNat, ok] at refused
    cases refused
  simp only [List.mem_cons, not_or] at apart
  refine ⟨apart.2.2, ?_, ?_⟩
  · rintro rfl
    exact apart.1 rfl
  · rintro rfl
    exact apart.2.1 rfl

theorem stable_of_bare (bare : ∀ c ∈ value, Bare c) : Stable value where
  stripped := Strip.strip_eq_self fun c member => by
    have solid := (bare c member).1
    simpa [isSpace] using solid
  bare := by
    have unquoted : ∀ q : Char, (q = '"' ∨ q = '\'') → value.head? ≠ some q := by
      rintro q isQuote head
      have first := bare q (List.mem_of_mem_head? head)
      rcases isQuote with rfl | rfl
      · exact first.2.1 rfl
      · exact first.2.2 rfl
    simp [quoted, unquoted]

theorem unbroken_of_bare (bare : ∀ c ∈ value, Bare c) : Unbroken value := by
  intro c member
  have solid := (bare c member).1
  have sub : ∀ n ∈ lineBreaks, n ∈ spaces := by decide
  by_contra breaks
  exact solid (sub _ (by simpa [isLineBreak] using breaks))

/-- What passes validation. -/
theorem bare_of_validateToken {token : Text} (accepted : validateToken token = .ok ()) :
    ∀ c ∈ strip token, Bare c := by
  have all : (strip token).all tokenAllowed = true := by
    unfold validateToken at accepted
    grind
  exact fun c member => bare_of_allowed (by decide) (List.all_eq_true.mp all c member)

/-- The characters of an endpoint. -/
def endpointAllowed (c : Char) : Bool := hostAllowed c || c = ':' || c = '/' || isDecimal c

theorem allowed_of_hostPort {s : Text} (ok : hostPort s = true) : ∀ c ∈ s, endpointAllowed c = true := by
  intro c member
  rw [← List.takeWhile_append_dropWhile (p := hostAllowed) (l := s), List.mem_append] at member
  rcases member with host | port
  · simp [endpointAllowed, List.mem_takeWhile_imp host]
  · unfold hostPort at ok
    split at ok
    · rename_i none_
      rw [none_] at port
      cases port
    · rename_i colon digits split
      simp only [Bool.and_eq_true, decide_eq_true_eq, List.all_eq_true] at ok
      obtain ⟨-, ⟨⟨rfl, decimal⟩, -⟩, -⟩ := ok
      rw [split] at port
      rcases List.mem_cons.mp port with rfl | digit
      · rfl
      · simp [endpointAllowed, decimal c digit]

theorem allowed_of_scheme {scheme s : Text} (starts : scheme.isPrefixOf s = true)
    (plain : scheme.all endpointAllowed = true) (ok : hostPort (s.drop scheme.length) = true) :
    ∀ c ∈ s, endpointAllowed c = true := by
  obtain ⟨rest, rfl⟩ := List.isPrefixOf_iff_prefix.mp starts
  rw [List.drop_left] at ok
  intro c member
  rcases List.mem_append.mp member with front | behind
  · exact List.all_eq_true.mp plain c front
  · exact allowed_of_hostPort ok c behind

theorem bare_of_validateEndpoint {endpoint : Text} (accepted : validateEndpoint endpoint = .ok ()) :
    ∀ c ∈ strip endpoint, Bare c := by
  have matches_ : endpointRe (strip endpoint) = true := by
    unfold validateEndpoint at accepted
    grind
  have all : ∀ c ∈ strip endpoint, endpointAllowed c = true := by
    simp only [endpointRe, Bool.or_eq_true, Bool.and_eq_true] at matches_
    rcases matches_ with (bare | ⟨starts, host⟩) | ⟨starts, host⟩
    · exact allowed_of_hostPort bare
    · exact allowed_of_scheme starts (by decide) host
    · exact allowed_of_scheme starts (by decide) host
  exact fun c member => bare_of_allowed (by decide) (all c member)

/-! ## The round trip -/

/-- The value, quotes and all, of the last line that assigns a key. -/
def lastAssigned (file : Option Text) (key : Text) : Option Text :=
  file.bind fun content => (assignments content).reverse.lookup key

/-- Of each key but the two that are written, the last value is not in quotes, or what is
between them starts and ends with neither a blank nor quotes of its own. -/
def Restorable (file : Option Text) : Prop :=
  ∀ key raw, key ≠ tokenKey → key ≠ endpointKey → lastAssigned file key = some raw →
    quoted raw = true → Stable (inside raw)

variable {os : Os} {token endpoint key raw : Text} {file : Option Text}

theorem mem_unquote (member : c ∈ unquote value) : c ∈ value := by
  unfold unquote at member
  split at member
  · exact List.mem_of_mem_drop (List.dropLast_subset _ member)
  · exact member

theorem lookup_readEnv (file : Option Text) (key : Text) :
    (readEnv file).lookup key = (lastAssigned file key).map unquote := by
  cases file with
  | none => rfl
  | some content => 
      rw [readEnv, Dict.lookup_fill, List.lookup_nil, Option.or_none, ← List.map_reverse, Dict.lookup_map]
      rfl

theorem stripped_of_lastAssigned (found : lastAssigned file key = some raw) : strip raw = raw := by
  cases file with
  | none => cases found
  | some content =>
      have member := Dict.mem_of_lookup (show (assignments content).reverse.lookup key = _ from found)
      exact (entry_of_assignments (List.mem_reverse.mp member)).2

/-- What was read can be written. -/
theorem entry_of_readEnv {entry : Text × Text} (member : entry ∈ readEnv file) : Entry entry := by
  cases file with
  | none => cases member
  | some content =>
      obtain ⟨assigned, inText, rfl⟩ := List.mem_map.mp (Dict.mem_of_mem_fill member)
      have ok := (entry_of_assignments inText).1
      exact ok.withValue fun c inValue => ok.value_unbroken c (mem_unquote inValue)

theorem distinct_readEnv (file : Option Text) : Dict.Distinct (readEnv file) := by
  cases file with
  | none => exact Dict.distinct_nil
  | some content => exact Dict.distinct_fill Dict.distinct_nil _

theorem distinct_current (token endpoint : Text) (file : Option Text) :
    Dict.Distinct (current token endpoint file) :=
  Dict.distinct_put (Dict.distinct_put (distinct_readEnv file) _ _) _ _

theorem lookup_current (token endpoint : Text) (file : Option Text) (key : Text) :
    (current token endpoint file).lookup key =
      if key = endpointKey then some (strip endpoint)
      else if key = tokenKey then some (strip token) else (readEnv file).lookup key := by
  rw [current, Dict.lookup_put, Dict.lookup_put]

/-- The two keys are keys. -/
theorem entry_of_bare {name : Text} (named : name = tokenKey ∨ name = endpointKey)
    (bare : ∀ c ∈ value, Bare c) : Entry (name, value) := by
  have unbroken : Unbroken name := by
    rcases named with rfl | rfl
    · exact List.all_iff_forall_prop.mp (by decide)
    · exact List.all_iff_forall_prop.mp (by decide)
  have key : strip name = name ∧ '=' ∉ name ∧ name.head? ≠ some '#' := by
    rcases named with rfl | rfl <;> decide
  exact ⟨key.1, key.2.1, key.2.2, bodyLine_unbroken unbroken (unbroken_of_bare bare)⟩

/-- What the writer accepted. -/
theorem accepted_of_wrote (wrote : writeTokenAndEndpoint os token endpoint file = .ok content) :
    validateToken token = .ok () ∧ validateEndpoint endpoint = .ok () ∧
      content = writeText os (body (current token endpoint file)) := by
  unfold writeTokenAndEndpoint at wrote
  cases first : validateToken token with
  | error e => rw [first] at wrote; cases wrote
  | ok _ =>
      cases second : validateEndpoint endpoint with
      | error e => rw [first, second] at wrote; cases wrote
      | ok _ =>
          rw [first, second] at wrote
          exact ⟨rfl, rfl, (Except.ok.inj wrote).symm⟩

theorem entry_of_current (acceptedToken : validateToken token = .ok ())
    (acceptedEndpoint : validateEndpoint endpoint = .ok ()) :
    ∀ entry ∈ current token endpoint file, Entry entry := by
  intro entry member
  rcases Dict.mem_put member with rfl | member
  · exact entry_of_bare (.inr rfl) (bare_of_validateEndpoint acceptedEndpoint)
  rcases Dict.mem_put member with rfl | member
  · exact entry_of_bare (.inl rfl) (bare_of_validateToken acceptedToken)
  · exact entry_of_readEnv member

/-- Every value of a restorable file comes back, and so do the two that are written. -/
theorem stable_of_restorable (acceptedToken : validateToken token = .ok ())
    (acceptedEndpoint : validateEndpoint endpoint = .ok ()) (restorable : Restorable file) :
    ∀ entry ∈ current token endpoint file, Stable entry.2 := by
  intro entry member
  have found := Dict.lookup_of_mem (distinct_current token endpoint file)
    (show (entry.1, entry.2) ∈ _ from member)
  rw [lookup_current] at found
  split at found
  · rw [← Option.some.inj found]
    exact stable_of_bare (bare_of_validateEndpoint acceptedEndpoint)
  rename_i notEndpoint
  split at found
  · rw [← Option.some.inj found]
    exact stable_of_bare (bare_of_validateToken acceptedToken)
  rename_i notToken
  rw [lookup_readEnv] at found
  obtain ⟨raw, last, value⟩ := Option.map_eq_some_iff.mp found
  rw [← value, unquote]
  split
  · exact restorable _ raw notToken notEndpoint last ‹_›
  · exact ⟨stripped_of_lastAssigned last, (Bool.not_eq_true _).mp ‹_›⟩

/-- **Round trip.**  After a write the reader finds the two keys with what was accepted and
every other key as before, and a second write changes nothing, if and only if the file is
restorable. -/
theorem write_restores_iff (wrote : writeTokenAndEndpoint os token endpoint file = .ok content) :
    ((∀ key, (readEnv (some content)).lookup key =
        if key = endpointKey then some (strip endpoint)
        else if key = tokenKey then some (strip token) else (readEnv file).lookup key) ∧
      writeTokenAndEndpoint os token endpoint (some content) = .ok content) ↔ Restorable file := by
  obtain ⟨acceptedToken, acceptedEndpoint, rfl⟩ := accepted_of_wrote wrote
  have read := readEnv_written os (distinct_current token endpoint file)
    (entry_of_current acceptedToken acceptedEndpoint)
  constructor
  · rintro ⟨same, -⟩ key raw notToken notEndpoint last isQuoted
    have before : (readEnv file).lookup key = some (inside raw) := by
      rw [lookup_readEnv, last, Option.map_some, unquote, if_pos isQuoted]
    have after := same key
    rw [read, Dict.lookup_map fun value => unquote (strip value), lookup_current,
      if_neg notEndpoint, if_neg notToken, before] at after
    exact reread_eq_iff.mp (Option.some.inj after)
  · intro restorable
    have stable := stable_of_restorable acceptedToken acceptedEndpoint restorable
    have back : readEnv (some (writeText os (body (current token endpoint file)))) =
        current token endpoint file := by
      rw [read]
      refine (List.map_congr_left fun entry member => ?_).trans (List.map_id _)
      rw [reread_eq_iff.mpr (stable entry member)]
      rfl
    refine ⟨fun key => by rw [back, lookup_current], ?_⟩
    have again : current token endpoint (some (writeText os (body (current token endpoint file)))) =
        current token endpoint file := by
      have distinct := distinct_current token endpoint file
      have apart : tokenKey ≠ endpointKey := by decide
      have tokenFound : (current token endpoint file).lookup tokenKey = some (strip token) := by
        rw [lookup_current, if_neg apart, if_pos rfl]
      have endpointFound : (current token endpoint file).lookup endpointKey = some (strip endpoint) := by
        rw [lookup_current, if_pos rfl]
      rw [current, back, Dict.put_self distinct tokenFound, Dict.put_self distinct endpointFound]
    rw [writeTokenAndEndpoint, acceptedToken, acceptedEndpoint, again]
    rfl

/-! ## Poles -/

def someToken : Text := " abcdef1234567890\n".toList

def someEndpoint : Text := "grpcs://isales.example.com:443".toList

/-- Comments, a repeated key and quotes around a value. -/
def handEdited : Text := "# edge\r\n\r\nLOG = INFO\r\nLOG = \"DEBUG\"\r\nnote\r\nPORT=1".toList

theorem handEdited_restored :
    ∃ content, writeTokenAndEndpoint .windows someToken someEndpoint (some handEdited) = .ok content ∧
      (∀ key, (readEnv (some content)).lookup key =
        if key = endpointKey then some (strip someEndpoint)
        else if key = tokenKey then some (strip someToken)
        else (readEnv (some handEdited)).lookup key) ∧
      writeTokenAndEndpoint .windows someToken someEndpoint (some content) = .ok content := by
  have lines : assignments handEdited =
      [("LOG".toList, "INFO".toList), ("LOG".toList, "\"DEBUG\"".toList), ("PORT".toList, "1".toList)] := by
    decide
  refine ⟨_, rfl, (write_restores_iff rfl).mpr ?_⟩
  intro key raw _ _ last isQuoted
  have member := List.mem_reverse.mp (Dict.mem_of_lookup
    (show (assignments handEdited).reverse.lookup key = some raw from last))
  rw [lines] at member
  simp only [List.mem_cons, Prod.mk.injEq, List.not_mem_nil, or_false] at member
  rcases member with ⟨-, rfl⟩ | ⟨-, rfl⟩ | ⟨-, rfl⟩
  · exact absurd isQuoted (by decide)
  · exact ⟨by decide, by decide⟩
  · exact absurd isQuoted (by decide)

/-- A value in two pairs of quotes loses one pair at each write. -/
theorem inner_quotes_lost :
    ∃ content, writeTokenAndEndpoint .windows someToken someEndpoint
        (some "ARGS=\"'--verbose'\"".toList) = .ok content ∧
      (readEnv (some "ARGS=\"'--verbose'\"".toList)).lookup "ARGS".toList = some "'--verbose'".toList ∧
      (readEnv (some content)).lookup "ARGS".toList = some "--verbose".toList ∧
      writeTokenAndEndpoint .windows someToken someEndpoint (some content) ≠ .ok content := by
  refine ⟨_, rfl, ?_, ?_, ?_⟩
  · decide
  · decide
  · decide

end IsalesTelephony.Ui.EnvWriter
