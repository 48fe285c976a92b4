/-
  A sine to play a tone with.

  It is meant for angles in one turn; an oscillator in range asks for no others.  The angle is
  reduced by a multiple of a quarter turn and a short polynomial is evaluated, both in double
  precision; the result is rounded to single precision once.  The bounds of the five branches are
  odd multiples of an eighth of a turn, compared as bit patterns, which order non-negative numbers
  as their values do.
-/
import DuplexAudio.Processor.Tone

namespace DuplexAudio.Bench

namespace Sine

/-- The sine polynomial of degree nine, for angles up to an eighth of a turn from zero. -/
def sinPolynomial (x : Float) : Float32 :=
  let z := x * x
  let w := z * z
  let r := -0.000198393348360966317347 + z * 0.0000027183114939898219064
  let s := z * x
  ((x + s * (-0.166666666416265235595 + z * 0.0083333293858894631756)) + s * w * r).toFloat32

/-- The cosine polynomial of degree eight, for the same angles. -/
def cosPolynomial (x : Float) : Float32 :=
  let z := x * x
  let w := z * z
  let r := -0.00138867637746099294692 + z * 0.0000243904487962774090654
  (((1 + z * -0.499999997251031003120) + w * 0.0416666233237390631894) + (w * z) * r).toFloat32

/-- A quarter of a turn, in double precision. -/
def quarterTurn : Float := Float.ofBits 0x3FF921FB54442D18

/-- The sine of `x`, for `x` from zero to one turn.  An angle too small to bend is its own sine;
what is not a number stays so. -/
def sine (x : Float32) : Float32 :=
  let wide := x.toFloat
  let bits := x.toBits
  if x.isNaN then x
  else if bits < 0x39800000 then x
  else if bits ≤ 0x3f490fda then sinPolynomial wide
  else if bits ≤ 0x4016cbe3 then cosPolynomial (wide - quarterTurn)
  else if bits ≤ 0x407b53d1 then sinPolynomial (-(wide - 2 * quarterTurn))
  else if bits ≤ 0x40afeddf then -cosPolynomial (wide - 3 * quarterTurn)
  else sinPolynomial (wide - 4 * quarterTurn)

end Sine

instance : SineFunction where
  sine := Sine.sine
  isNaN_sine _ h := by rwa [Sine.sine, if_pos h]

end DuplexAudio.Bench
