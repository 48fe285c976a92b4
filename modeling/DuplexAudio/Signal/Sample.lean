/-
  Samples and levels.

  A sample is a 24-bit integer in a 32-bit word; a level is a single-precision number that is
  nominally between -1 and 1.  `toLevel` and `ofLevel` go back and forth, `toSampleRange` keeps a
  word in the 24-bit range, and `softClip` bends levels beyond the knee instead of cutting them.

  All arithmetic is IEEE-754 binary32, one rounding for each operation, in the order written.
-/
import DuplexAudio.Format

namespace DuplexAudio

/-! ## Words -/

/-- The nearest value in the 24-bit range. -/
def toSampleRange (v : Int32) : Int32 :=
  if v < -8388608 then -8388608 else if fullScale < v then fullScale else v

/-- The level of a word, rounded to nearest: its magnitude is converted and the sign put back,
which is exact because rounding to nearest is odd. -/
def wordToFloat (v : Int32) : Float32 :=
  let magnitude := v.toInt.natAbs.toUInt32.toFloat32
  if v < 0 then -magnitude else magnitude

/-- The integer part of a number, held in the range of a word.  What is not a number gives 0. -/
def truncateToWord (x : Float32) : Int32 :=
  let magnitude : Int := x.abs.toUInt32.toNat
  Int32.ofIntClamp (if x < 0 then -magnitude else magnitude)

/-! ## Levels -/

/-- Full scale as a number. -/
def fullScaleLevel : Float32 := 8388607

/-- The sample as a level. -/
def toLevel (sample : Int32) : Float32 := wordToFloat sample * (1 / fullScaleLevel)

/-- The level as a sample, truncated toward zero and held in the 24-bit range. -/
def ofLevel (level : Float32) : Int32 := toSampleRange (truncateToWord (level * fullScaleLevel))

/-- Where `softClip` leaves the identity. -/
def softClipKnee : Float32 := 0.95

/-- The identity up to the knee; beyond it the excess `e` is bent to `e / (1 + e * e)`, with the
sign of the level. -/
def softClip (level : Float32) : Float32 :=
  if level.abs ≤ softClipKnee then level
  else
    let excess := level.abs - softClipKnee
    let bent := softClipKnee + excess / (1 + excess * excess)
    if level < 0 then -bent else bent

end DuplexAudio
