/-
  Calls on a codec, one after the other.

  A codec changes only in its calls, so it is known after a list of them from what it was before
  (`Codec.afterCalls`), and so is what it answered (`Codec.answers`).
-/
import DuplexAudio.Device

namespace DuplexAudio

/-- Whether a call is one to mute or unmute. -/
def CodecCall.isMute : CodecCall → Bool
  | setMute _ => true
  | init | configure => false

namespace Codec

variable {σ : Type} [Codec σ]

/-- What a codec answers to some calls, one after the other. -/
def answers : List CodecCall → σ → List (CodecCall × Except CodecFailure Unit)
  | [], _ => []
  | call :: calls, d =>
    (call, (Codec.call call d).result) :: answers calls (Codec.call call d).device

/-- What some calls leave of a codec. -/
def afterCalls (calls : List CodecCall) (d : σ) : σ :=
  calls.foldl (fun d call => (Codec.call call d).device) d

theorem afterCalls_append (calls calls' : List CodecCall) (d : σ) :
    afterCalls (calls ++ calls') d = afterCalls calls' (afterCalls calls d) :=
  List.foldl_append

theorem answers_append (calls calls' : List CodecCall) (d : σ) :
    answers (calls ++ calls') d = answers calls d ++ answers calls' (afterCalls calls d) := by
  induction calls generalizing d with
  | nil => rfl
  | cons call calls ih => exact congrArg (_ :: ·) (ih (Codec.call call d).device)

end Codec

end DuplexAudio
