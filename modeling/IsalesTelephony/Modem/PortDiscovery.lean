/-
# Modem.PortDiscovery -- which two serial ports are the modem

`find_audio_serial_path` and `discover_modem_serial_paths` of `platforms/windows_serial.py`.
A port is a candidate by its description; the first candidate that answers the probe is the AT
port, and the audio port is the first one listed of the same device.

What is returned is always such a pair (`returned_pair`).  Of the candidates that answer only
the first is looked at: discovery finds a pair wherever there is one exactly if that candidate
has an audio sibling whenever some candidate does (`discovery_complete_iff`).

`str.lower` and the probe are parameters.
-/
import IsalesTelephony.Modem.UsbWatcher

namespace IsalesTelephony.Modem

set_option autoImplicit false

/-- A port with the description that `comports` gives. -/
structure DescribedPort extends ListPortInfo where
  description : Option String
  deriving DecidableEq, Repr

/-- What `list(scanner())` comes to. -/
inductive ComScan where
  /-- pyserial is not installed -/
  | unavailable
  | raises (exc : String)
  | lists (ports : List DescribedPort)
  deriving DecidableEq, Repr

namespace WindowsSerial

def audioDescriptionToken : String := "audio"

def atDescriptionToken : String := "at port"

/-- `ModemDiscoveryError`, by the place it is raised at. -/
inductive ModemDiscoveryError where
  | noPyserial
  | scanFailed (exc : String)
  | noAtPort
  /-- no candidate of these devices answers -/
  | noAnswer (devices : List String)
  /-- the AT port has no sibling -/
  | noSibling (device : String)
  deriving DecidableEq, Repr

/-- `str(error)`, where `repr` writes a list of strings. -/
def ModemDiscoveryError.message (repr : List String → String) : ModemDiscoveryError → String
  | .noPyserial => "pyserial not available for COM scan"
  | .scanFailed exc => "serial port scan failed: " ++ exc
  | .noAtPort =>
      "no AT-command port found (no COM description contains 'at port'); " ++
        "is the USB GSM modem plugged in and its driver installed?"
  | .noAnswer devices =>
      "AT-port candidate(s) " ++ repr devices ++ " found but none answered 'AT' with 'OK' — " ++
        "modem may be wedged (try re-plugging the USB cable)"
  | .noSibling device =>
      "AT port " ++ device ++ " found but no sibling Audio port (same vid/pid/serial + " ++
        "description containing 'audio'); check the SIMCom driver install"

variable (lower : String → String) (atProber : String → Bool)

/-- `token in (port.description or "").lower()` -/
def Describes (token : String) (port : DescribedPort) : Prop :=
  token.toList <:+: (lower (port.description.getD "")).toList

instance (token : String) (port : DescribedPort) : Decidable (Describes lower token port) :=
  inferInstanceAs (Decidable (_ <:+: _))

def findAudioSerialPath (usbSerial vid pid : Option String) (scanner : ComScan) : Option String :=
  if usbSerial.getD "" = "" then none
  else
    match scanner with
    | .lists ports =>
        (ports.find? fun port =>
          vidPidHex port.vid = vid ∧ vidPidHex port.pid = pid ∧ port.serialNumber = usbSerial ∧
            Describes lower (lower audioDescriptionToken) port).map
          fun port => port.device
    | _ => none

def discoverModemSerialPaths (scanner : ComScan) :
    Except ModemDiscoveryError (String × String) :=
  match scanner with
  | .unavailable => .error .noPyserial
  | .raises exc => .error (.scanFailed exc)
  | .lists ports =>
      let atCandidates := ports.filter fun port => Describes lower atDescriptionToken port
      if atCandidates.isEmpty then .error .noAtPort
      else
        match atCandidates.find? fun port => atProber port.device with
        | none => .error (.noAnswer (atCandidates.map fun port => port.device))
        | some atPort =>
            let audioPath := (findAudioSerialPath lower atPort.serialNumber (vidPidHex atPort.vid)
              (vidPidHex atPort.pid) (.lists ports)).getD ""
            if audioPath = "" then .error (.noSibling atPort.device)
            else .ok (atPort.device, audioPath)

/-! ## What is looked for -/

/-- The port carries the AT token and answers the probe. -/
def Answers (port : DescribedPort) : Prop :=
  Describes lower atDescriptionToken port ∧ atProber port.device = true

instance (port : DescribedPort) : Decidable (Answers lower atProber port) :=
  inferInstanceAs (Decidable (_ ∧ _))

/-- A port of the same device, which has a serial number, that carries the audio token. -/
def AudioSibling (port audio : DescribedPort) : Prop :=
  port.serialNumber.getD "" ≠ "" ∧ audio.vid = port.vid ∧ audio.pid = port.pid ∧
    audio.serialNumber = port.serialNumber ∧
    Describes lower (lower audioDescriptionToken) audio

instance (port audio : DescribedPort) : Decidable (AudioSibling lower port audio) :=
  inferInstanceAs (Decidable (_ ∧ _))

variable {lower : String → String} {atProber : String → Bool} {ports : List DescribedPort}
  {port : DescribedPort}

/-- The search for an audio path finds the first sibling. -/
theorem findAudioSerialPath_eq :
    findAudioSerialPath lower port.serialNumber (vidPidHex port.vid) (vidPidHex port.pid)
        (.lists ports) =
      (ports.find? fun audio => AudioSibling lower port audio).map fun audio => audio.device := by
  unfold findAudioSerialPath
  by_cases serial : port.serialNumber.getD "" = ""
  · have nothing : ports.find? (fun audio => AudioSibling lower port audio) = none := by
      simp [AudioSibling, serial]
    rw [if_pos serial, nothing, Option.map_none]
  · rw [if_neg serial]
    have same : ∀ m n : Option Nat, vidPidHex m = vidPidHex n ↔ m = n := fun m n =>
      ⟨vidPidHex_inj, congrArg vidPidHex⟩
    simp [AudioSibling, serial, same]

/-- The candidate that answers is the first port that does. -/
theorem find_candidate :
    ((ports.filter fun port => Describes lower atDescriptionToken port).find?
        fun port => atProber port.device) =
      ports.find? fun port => Answers lower atProber port := by
  rw [List.find?_filter]
  refine congrArg (List.find? · ports) (funext fun port => ?_)
  rw [Bool.eq_iff_iff, decide_eq_true_iff, decide_eq_true_iff, decide_eq_true_iff]
  rfl

/-- Nothing answers: the error tells whether there was a candidate. -/
theorem discover_of_none
    (silent : (ports.find? fun port => Answers lower atProber port) = none) :
    discoverModemSerialPaths lower atProber (.lists ports) =
      let atCandidates := ports.filter fun port => Describes lower atDescriptionToken port
      .error (if atCandidates.isEmpty then .noAtPort
        else .noAnswer (atCandidates.map fun port => port.device)) := by
  simp only [discoverModemSerialPaths, find_candidate, silent]
  split
  · rfl
  · rfl

/-- The first port that answers decides. -/
theorem discover_of_first
    (found : (ports.find? fun port => Answers lower atProber port) = some port) :
    discoverModemSerialPaths lower atProber (.lists ports) =
      match ports.find? fun audio => AudioSibling lower port audio with
      | none => .error (.noSibling port.device)
      | some audio =>
          if audio.device = "" then .error (.noSibling port.device)
          else .ok (port.device, audio.device) := by
  have candidate : port ∈ ports.filter fun port => Describes lower atDescriptionToken port := by
    have answers : Answers lower atProber port := by simpa using List.find?_some found
    exact List.mem_filter.mpr ⟨List.mem_of_find?_eq_some found, by simpa using answers.1⟩
  have listed : (ports.filter fun port =>
      Describes lower atDescriptionToken port).isEmpty ≠ true := by
    intro empty
    rw [List.isEmpty_iff.mp empty] at candidate
    cases candidate
  simp only [discoverModemSerialPaths, find_candidate, found, findAudioSerialPath_eq]
  rw [if_neg listed]
  cases ports.find? fun audio => AudioSibling lower port audio with
  | none => exact if_pos rfl
  | some audio => rfl

/-! ## Soundness and completeness -/

/-- The two paths are those of a port that answers and of an audio sibling of it. -/
def IsPair (lower : String → String) (atProber : String → Bool) (ports : List DescribedPort)
    (atPath audioPath : String) : Prop :=
  ∃ port ∈ ports, ∃ audio ∈ ports, Answers lower atProber port ∧ AudioSibling lower port audio ∧
    port.device = atPath ∧ audio.device = audioPath

/-- Some port that answers has an audio sibling. -/
def HasPair (lower : String → String) (atProber : String → Bool) (ports : List DescribedPort) :
    Prop :=
  ∃ port ∈ ports, Answers lower atProber port ∧ ∃ audio ∈ ports, AudioSibling lower port audio

/-- The first port that answers has an audio sibling, and the first one it has is not nameless. -/
def FirstHasSibling (lower : String → String) (atProber : String → Bool)
    (ports : List DescribedPort) : Prop :=
  ∃ port, (ports.find? fun port => Answers lower atProber port) = some port ∧
    ∃ audio, (ports.find? fun audio => AudioSibling lower port audio) = some audio ∧
      audio.device ≠ ""

/-- Discovery returns a pair exactly if the first port that answers has a sibling. -/
theorem returns_iff :
    (∃ pair, discoverModemSerialPaths lower atProber (.lists ports) = .ok pair) ↔
      FirstHasSibling lower atProber ports := by
  unfold FirstHasSibling
  cases found : ports.find? fun port => Answers lower atProber port with
  | none => simp [discover_of_none found]
  | some port =>
      rw [discover_of_first found]
      cases sibling : ports.find? fun audio => AudioSibling lower port audio with
      | none => simp [sibling]
      | some audio =>
          by_cases nameless : audio.device = ""
          · simp [sibling, nameless]
          · simp [sibling, nameless]

theorem returned_pair {atPath audioPath : String}
    (returned : discoverModemSerialPaths lower atProber (.lists ports) = .ok (atPath, audioPath)) :
    IsPair lower atProber ports atPath audioPath := by
  cases found : ports.find? fun port => Answers lower atProber port with
  | none =>
      rw [discover_of_none found] at returned
      cases returned
  | some port =>
      rw [discover_of_first found] at returned
      split at returned
      · cases returned
      · rename_i audio sibling
        split at returned
        · cases returned
        · obtain ⟨rfl, rfl⟩ := Prod.mk.inj (Except.ok.inj returned)
          have answers : Answers lower atProber port := by simpa using List.find?_some found
          have isSibling : AudioSibling lower port audio := by simpa using List.find?_some sibling
          exact ⟨port, List.mem_of_find?_eq_some found, audio, List.mem_of_find?_eq_some sibling,
            answers, isSibling, rfl, rfl⟩

/-- **Port discovery.**  What is returned is a pair, and discovery raises only where there is
none, exactly if the first port that answers has an audio sibling whenever one does. -/
theorem discovery_complete_iff (lower : String → String) (atProber : String → Bool)
    (ports : List DescribedPort) :
    ((∀ atPath audioPath,
        discoverModemSerialPaths lower atProber (.lists ports) = .ok (atPath, audioPath) →
          IsPair lower atProber ports atPath audioPath) ∧
      ∀ error, discoverModemSerialPaths lower atProber (.lists ports) = .error error →
        ¬ HasPair lower atProber ports) ↔
      (HasPair lower atProber ports → FirstHasSibling lower atProber ports) := by
  constructor
  · rintro ⟨-, complete⟩ pair
    cases discovered : discoverModemSerialPaths lower atProber (.lists ports) with
    | error error => exact absurd pair (complete error discovered)
    | ok paths => exact returns_iff.mp ⟨paths, discovered⟩
  · intro first
    refine ⟨fun atPath audioPath => returned_pair, fun error raised pair => ?_⟩
    obtain ⟨paths, returned⟩ := returns_iff.mpr (first pair)
    cases raised.symm.trans returned

/-! ## Poles -/

/-- Two modems: the first one's audio interface has no driver. -/
def twoModems : List DescribedPort :=
  [⟨⟨"COM3", some 0x1e0e, some 0x9001, some "A"⟩, some "Simcom HS-USB AT PORT 9001 (COM3)"⟩,
    ⟨⟨"COM16", some 0x1e0e, some 0x9001, some "B"⟩, some "Simcom HS-USB AT PORT 9001 (COM16)"⟩,
    ⟨⟨"COM17", some 0x1e0e, some 0x9001, some "B"⟩, some "Simcom HS-USB Audio 9001 (COM17)"⟩]

/-- **The second modem is not looked at.** -/
theorem second_modem_missed :
    ¬ ∀ (lower : String → String) (atProber : String → Bool) (ports : List DescribedPort),
      (∀ atPath audioPath,
        discoverModemSerialPaths lower atProber (.lists ports) = .ok (atPath, audioPath) →
          IsPair lower atProber ports atPath audioPath) ∧
      ∀ error, discoverModemSerialPaths lower atProber (.lists ports) = .error error →
        ¬ HasPair lower atProber ports := by
  intro claim
  have raised : discoverModemSerialPaths String.toLower (fun _ => true) (.lists twoModems) =
      .error (.noSibling "COM3") := by
    decide +kernel
  have usable : HasPair String.toLower (fun _ => true) twoModems := by
    unfold HasPair
    decide +kernel
  exact (claim _ _ _).2 _ raised usable

end WindowsSerial

end IsalesTelephony.Modem
