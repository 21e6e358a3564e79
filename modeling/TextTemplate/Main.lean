import Std.Time.Zoned
import TextTemplate.CommandLine.Run

namespace TextTemplate.CommandLine

/-- What the system says of a file. Some of its interfaces negate the codes. -/
def FileFailure.ofError : IO.Error → FileFailure
  | .noFileOrDirectory _ _ _ => .missing
  | .inappropriateType _ code details =>
    if code = 21 ∨ code = -21 then .isDirectory
    else if code = 20 ∨ code = -20 then .notDirectory
    else .other details
  | .invalidArgument _ code details =>
    if code = 36 ∨ code = -36 then .nameTooLong else .other details
  | e => .other (toString e)

def systemFiles : FileAccess IO where
  read path := do
    try
      let bytes ← IO.FS.readBinFile path
      match String.fromUTF8? bytes with
      | some text => return .ok text
      | none => return .error .notText
    catch e => return .error (.ofError e)
  write path text := do
    try
      IO.FS.writeFile path text
      return .ok ()
    catch e => return .error (.ofError e)

def systemTime : IO Calendar.DateTime := do
  let t ← Std.Time.PlainDateTime.now
  let date := Calendar.Date.ofYearMonthDay? t.year.toInt t.month.toNat t.day.toNat
  let time := Calendar.TimeOfDay.ofClock? t.hour.toNat t.minute.toNat t.second.toNat t.nanosecond.toNat
  match date, time with
  | some date, some time => return ⟨date, time⟩
  | _, _ => throw (IO.userError "no time on the clock")

end TextTemplate.CommandLine

open TextTemplate.CommandLine in
def main (args : List String) : IO UInt32 := do
  let outcome ← run systemFiles (← systemTime) args
  (← IO.getStdout).putStr outcome.stdout
  (← IO.getStderr).putStr outcome.stderr
  return outcome.code.toUInt32
