/-
# Audio.Recorder -- the tracks of the calls being recorded

`Recorder` of `modem_controller/recorder.py`, up to the file that `finalize` writes: each
call that has begun has a user and an AI track, and a chunk for a call that has not begun is
dropped.
-/
import IsalesTelephony.Audio.Pcm
import IsalesTelephony.Theory.Dict

namespace IsalesTelephony.Audio

set_option autoImplicit false

open IsalesTelephony.Theory

/-- `_CallTracks`. -/
structure CallTracks where
  userChunks : List Pcm := []
  aiChunks : List Pcm := []
  deriving DecidableEq, Repr

structure Recorder where
  tracks : List (String × CallTracks) := []
  deriving DecidableEq, Repr

namespace Recorder

/-- `begin_call`, when there is room on the disk. -/
def beginCall (r : Recorder) (callId : String) : Recorder :=
  { r with tracks := Dict.put r.tracks callId {} }

/-- Append to a track of the call, if it has begun. -/
def append (r : Recorder) (callId : String) (chunk : CallTracks → CallTracks) : Recorder :=
  match r.tracks.lookup callId with
  | some track => { r with tracks := Dict.put r.tracks callId (chunk track) }
  | none => r

def appendUser (r : Recorder) (callId : String) (pcm16k : Pcm) : Recorder :=
  r.append callId fun track => { track with userChunks := track.userChunks ++ [pcm16k] }

def appendAi (r : Recorder) (callId : String) (pcm16k : Pcm) : Recorder :=
  r.append callId fun track => { track with aiChunks := track.aiChunks ++ [pcm16k] }

/-- `b"".join(track.ai_chunks)`. -/
def aiTrack (r : Recorder) (callId : String) : Pcm :=
  ((r.tracks.lookup callId).getD {}).aiChunks.flatten

/-- `b"".join(track.user_chunks)`. -/
def userTrack (r : Recorder) (callId : String) : Pcm :=
  ((r.tracks.lookup callId).getD {}).userChunks.flatten

/-- The call has begun and is not finalized. -/
def Records (r : Recorder) (callId : String) : Prop := (r.tracks.lookup callId).isSome = true

variable {r : Recorder} {callId : String}

theorem records_beginCall (r : Recorder) (callId : String) : (r.beginCall callId).Records callId := by
  simp [Records, beginCall]

theorem aiTrack_beginCall (r : Recorder) (callId : String) :
    (r.beginCall callId).aiTrack callId = [] := by
  simp [aiTrack, beginCall]

theorem records_appendAi (records : r.Records callId) (pcm : Pcm) :
    (r.appendAi callId pcm).Records callId := by
  obtain ⟨track, found⟩ := Option.isSome_iff_exists.mp records
  simp [Records, appendAi, append, found]

theorem aiTrack_appendAi (records : r.Records callId) (pcm : Pcm) :
    (r.appendAi callId pcm).aiTrack callId = r.aiTrack callId ++ pcm := by
  obtain ⟨track, found⟩ := Option.isSome_iff_exists.mp records
  simp [aiTrack, appendAi, append, found]

theorem userTrack_beginCall (r : Recorder) (callId : String) :
    (r.beginCall callId).userTrack callId = [] := by
  simp [userTrack, beginCall]

theorem records_appendUser (records : r.Records callId) (pcm : Pcm) :
    (r.appendUser callId pcm).Records callId := by
  obtain ⟨track, found⟩ := Option.isSome_iff_exists.mp records
  simp [Records, appendUser, append, found]

theorem userTrack_appendUser (records : r.Records callId) (pcm : Pcm) :
    (r.appendUser callId pcm).userTrack callId = r.userTrack callId ++ pcm := by
  obtain ⟨track, found⟩ := Option.isSome_iff_exists.mp records
  simp [userTrack, appendUser, append, found]

/-- The AI tap leaves the user track alone. -/
theorem userTrack_appendAi (records : r.Records callId) (pcm : Pcm) :
    (r.appendAi callId pcm).userTrack callId = r.userTrack callId := by
  obtain ⟨track, found⟩ := Option.isSome_iff_exists.mp records
  simp [userTrack, appendAi, append, found]

end Recorder

end IsalesTelephony.Audio
