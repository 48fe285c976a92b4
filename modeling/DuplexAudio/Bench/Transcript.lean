/-
  A bench's events in words, one line each.

  Not every event is worth a line: what software stores, when the processor is called, and the
  pauses of a driver leave none.
-/
import DuplexAudio.Bench.Instruments
import DuplexAudio.Engine.Journal

namespace DuplexAudio.Bench

/-- Where one half of a buffer lies in its region, and how long it is, in bytes. -/
def spanText (d : Direction) (h : Half) : String :=
  d.label ++ "+" ++ toString (DoubleBuffer.halfOffset d.bufferChannels h) ++ " "
    ++ toString (DoubleBuffer.halfBytes d.bufferChannels)

/-- The line of something that happened on a stream. -/
def streamLine? : StreamEvent → Option String
  | .store _ _ | .process _ => none
  | .publish d h => some ("cache publish " ++ spanText d h)
  | .acquire d h => some ("cache acquire " ++ spanText d h)
  | .pull frames => some ("pull " ++ toString frames)
  | .push frames block => some ("push " ++ toString frames ++ " " ++ toString (checksum block))
  | .nested accepted => some ("nested " ++ toString accepted)

/-- The name of a side of a front end. -/
def sideName : ConverterSide → String
  | .capture => "adc"
  | .playback => "dac"

/-- The name of a call that is passed on to a side. -/
def passedName : CodecCall → String
  | .init => "init"
  | .configure => "config"
  | .setMute mute => "set_mute " ++ toString mute

/-- The name of a call on a whole codec. -/
def callName : CodecCall → String
  | .init => "init"
  | .configure => "config"
  | .setMute true => "mute"
  | .setMute false => "unmute"

/-- The line of something that a driver did on its bus. -/
def busLine? : BusEvent → Option String
  | .write a r v => some ("i2c w " ++ hexByte a ++ " " ++ hexByte r ++ " " ++ hexByte v)
  | .read a r v => some ("i2c r " ++ hexByte a ++ " " ++ hexByte r ++ " " ++ hexByte v)
  | .fault a _ => some ("i2c fail " ++ hexByte a)
  | .pause _ => none

/-- The line of a drive of the mute line. -/
def pinLine : PinEvent → String
  | .drive .low => "pin low"
  | .drive .high => "pin high"
  | .fault => "pin fail"

/-- The line of something that happened below a codec. -/
def wireLine? : WireEvent → Option String
  | .bus event => busLine? event
  | .pin event => some (pinLine event)
  | .passed side call => some (sideName side ++ " " ++ passedName call)

/-- The name of a call on a link. -/
def linkName : LinkCall → String
  | .configure => "configure"
  | .start => "start"
  | .stop => "stop"

/-- The name of a weight. -/
def levelName : LogLevel → String
  | .info => "info"
  | .warn => "warn"
  | .error => "error"

/-- The line of an event in the life of an engine.  Interrupts are told by `interruptText`; inside
an engine's codec, the calls that are passed on leave no line. -/
def engineLine? (interruptText : InterruptOutcome → Lifecycle → String) :
    EngineEvent → Option String
  | .codec call _ => some ("codec " ++ callName call)
  | .wire (.passed _ _) => none
  | .wire event => wireLine? event
  | .link call => some ("transport " ++ linkName call)
  | .interrupt outcome state => some ("irq " ++ interruptText outcome state)
  | .stream event => streamLine? event
  | .spawned | .joined => none
  | .notice n => some ("log " ++ levelName n.level ++ " " ++ n.text)

end DuplexAudio.Bench
