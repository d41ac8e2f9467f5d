import AnimationGrammar.Json.Reader
import AnimationGrammar.Value.Basic
import AnimationGrammar.Yaml.Cursor
import AnimationGrammar.Yaml.Problem

/-!
Days and moments in YAML documents.

A spelling says year, month and day, and possibly a time of day with the distance from universal time.
Whether there is such a day is a question of its own, which `checkMoment` answers.
-/

namespace AnimationGrammar.Yaml

open Json (digitsValue takeDigits)

/-- A number of exactly so many digits, and the text after it. -/
def fixedDigits? (count : Nat) (text : List Char) : Option (Nat × List Char) :=
  let digits := text.take count
  if digits.length = count && digits.all (·.isDigit) then some (digitsValue digits, text.drop count)
  else none

/-- A number of one or two digits, and the text after it. -/
def shortDigits? (text : List Char) : Option (Nat × List Char) :=
  (fixedDigits? 2 text).or (fixedDigits? 1 text)

/-- The text after a character that has to come next. -/
def dropChar? (c : Char) : List Char → Option (List Char)
  | first :: rest => if first = c then some rest else none
  | [] => none

/-- The distance from universal time at the end of a moment, in minutes. -/
def zone? (text : List Char) : Option (Option Int) :=
  match text.dropWhile isBlank with
  | [] => if text.isEmpty then some none else none
  | ['Z'] => some (some 0)
  | sign :: rest =>
      if sign = '-' || sign = '+' then
        match shortDigits? rest with
        | none => none
        | some (hours, []) => some (some (signed (sign = '-') (hours * 60)))
        | some (hours, later) =>
            match (dropChar? ':' later).bind (fixedDigits? 2) with
            | some (minutes, []) => some (some (signed (sign = '-') (hours * 60 + minutes)))
            | _ => none
      else none

def clock? (text : List Char) : Option Clock := do
  let start ← match text with
    | c :: rest =>
        if c = 'T' || c = 't' then some rest
        else if isBlank c then some (rest.dropWhile isBlank)
        else none
    | [] => none
  let (hour, text) ← shortDigits? start
  let (minute, text) ← (dropChar? ':' text).bind (fixedDigits? 2)
  let (second, text) ← (dropChar? ':' text).bind (fixedDigits? 2)
  let (fraction, text) := match text with
    | '.' :: rest => takeDigits rest
    | rest => ([], rest)
  let microsecond := digitsValue ((fraction ++ List.replicate 6 '0').take 6)
  let offsetMinutes ← zone? text
  return { hour, minute, second, microsecond, offsetMinutes }

/-- A day or a moment as it is spelled, whether or not there is such a day. -/
def moment? (text : List Char) : Option Timestamp := do
  let (year, rest) ← fixedDigits? 4 text
  let (month, afterMonth) ← (dropChar? '-' rest).bind shortDigits?
  let (day, afterDay) ← (dropChar? '-' afterMonth).bind shortDigits?
  if afterDay.isEmpty then return { year, month, day, clock := none }
  else return { year, month, day, clock := some (← clock? afterDay) }

/-- Whether a plain scalar is a day or a moment.  A day alone has two digits for its month and two for
its day. -/
def isMomentText (text : List Char) : Bool :=
  (moment? text).any fun t => t.clock.isSome || text.length = 10

/-- What is wrong with the distance of a moment from universal time. -/
def zoneProblem? (t : Timestamp) : Option Problem :=
  (t.clock.bind (·.offsetMinutes)).bind fun minutes =>
    if 1440 ≤ minutes.natAbs then some (.zoneOutOfRange minutes) else none

/-- Why there is no such moment, if there is none. -/
def momentProblem? (t : Timestamp) : Option Problem :=
  if (zoneProblem? t).isSome then zoneProblem? t
  else if t.year = 0 then some (.yearOutOfRange t.year)
  else if t.month = 0 || 12 < t.month then some .monthOutOfRange
  else if t.day = 0 || daysInMonth t.year t.month < t.day then some .dayOutOfRange
  else
    match t.clock with
    | none => none
    | some c =>
        if 23 < c.hour then some .hourOutOfRange
        else if 59 < c.minute then some .minuteOutOfRange
        else if 59 < c.second then some .secondOutOfRange
        else none

/-- The day or the moment that a scalar stands for.  A line end after it does no harm. -/
def readMoment (text : List Char) : Except Problem Timestamp :=
  let spelled := if text.getLast? == some '\n' then text.dropLast else text
  match moment? spelled with
  | none => .error (.fatal .unknownMoment)
  | some t =>
      match momentProblem? t with
      | some problem => .error problem
      | none => .ok t

end AnimationGrammar.Yaml
