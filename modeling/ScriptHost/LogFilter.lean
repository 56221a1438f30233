import ScriptHost.Log
import ScriptHost.Text.Alphanumeric
import ScriptHost.Text.Blank
import ScriptHost.Text.Decimal
import ScriptHost.Text.Pattern.Check

/-! Which events are shown. A filter is a list of directives, each with the most verbose level it
lets through. A directive may be bound to targets that begin with a name, to spans of a name and to
a field, with any value or with one that fits a pattern. -/

namespace ScriptHost

structure LogField where
  name : List Char
  pattern : Option (List Char)
deriving DecidableEq, Repr

structure LogDirective where
  /-- Empty for every target. -/
  target : List Char := []
  span : Option (List Char) := none
  field : Option LogField := none
  /-- The highest rank that passes; zero for none. -/
  most : Nat := Level.trace.rank
deriving DecidableEq, Repr

namespace LogDirective

def rankOf (s : List Char) : Option Nat :=
  match Text.readDecimal Level.trace.rank s with
  | .ok rank => some rank
  | .error _ =>
    let word := String.ofList (s.map Char.toLower)
    if word = "off" then some 0 else (Level.all.find? (·.name = word)).map Level.rank

/-- A directive without the blanks around it decides where its parts begin and end, and what
stands at the same places of the full one is what they are. Each character comes with the one
that stands at its place. -/
abbrev Placed := List (Char × Char)

def Placed.text (s : Placed) : List Char := s.map Prod.snd

/-- No level lets everything through. -/
def readLevel (d : LogDirective) (s : List Char) : Option LogDirective :=
  if s = [] then some d else (rankOf s).map fun most => { d with most }

/-- What stands behind brackets; `tail` is left of the full directive. -/
def readEnd (tail : List Char) (d : LogDirective) : Placed → Option LogDirective
  | [] => some d
  | ('=', _) :: rest => d.readLevel (Placed.text rest ++ tail)
  | _ => none

def readField (s : List Char) : Option LogField :=
  let name := s.takeWhile (· ≠ '=')
  match s.drop name.length with
  | [] => if name = [] then none else some ⟨name, none⟩
  | _ :: rest =>
    let value := rest.takeWhile (· ≠ '=')
    if Text.isNumber value || Text.isPattern value then
      some ⟨name, some value⟩
    else none

/-- Behind an opening bracket: the name of a span, a field in braces, or both. -/
def readScope (tail : List Char) (d : LogDirective) (s : Placed) : Option LogDirective :=
  let span := s.takeWhile fun c => c.1 ≠ ']' && c.1 ≠ '\x7b'
  match s.drop span.length with
  | (']', _) :: rest => readEnd tail { d with span := some (Placed.text span) } rest
  | ('\x7b', _) :: rest =>
    let field := rest.takeWhile (·.1 ≠ '\x7d')
    match rest.drop field.length with
    | _ :: (']', _) :: rest => do
      let field ← readField (Placed.text field)
      let span := if span = [] then none else some (Placed.text span)
      readEnd tail { d with span, field := some field } rest
    | _ => none
  | _ => none

def beginsName (c : Char) : Bool := Text.isAlphanumeric c || c = '_' || c = ':' || c = '-'

/-- A level, for every target; or a target, brackets or both, and then perhaps an equals sign and a
level. What could be a level is no target. -/
def read (s : List Char) : Option LogDirective :=
  let inner := Text.trim s
  let tail := s.drop inner.length
  match inner.zip s with
  | [] => none
  | (c, k) :: rest =>
    if c = '[' then readScope tail {} rest
    else if beginsName c then
      let placed := (c, k) :: rest
      let name := placed.takeWhile fun c => c.1 ≠ '=' && c.1 ≠ '['
      let target := Placed.text name
      match placed.drop name.length with
      | [] => some <| (rankOf s).elim { target := s } fun most => { most }
      | ('[', _) :: rest => readScope tail { target } rest
      | _ :: rest => readLevel { target } (Placed.text rest ++ tail)
    else none

/-- The directive speaks of events of this target with these fields that happen outside all spans.
A value is known of spans alone. -/
def concerns (d : LogDirective) (target : String) (fields : List String) : Bool :=
  d.target.isPrefixOf target.toList && d.span.isNone &&
    d.field.all fun f => f.pattern.isNone && fields.contains (String.ofList f.name)

/-- A longer target makes a directive more specific, then a field does. -/
def atMost (d e : LogDirective) : Bool :=
  d.target.length < e.target.length ||
    d.target.length = e.target.length && (d.field.isNone || e.field.isSome)

end LogDirective

abbrev LogFilter := List LogDirective

namespace LogFilter

def splitCommas : List Char → List (List Char)
  | [] => [[]]
  | c :: rest =>
    match splitCommas rest with
    | [] => [[c]]
    | part :: parts => if c = ',' then [] :: part :: parts else (c :: part) :: parts

/-- Empty parts say nothing. One bad directive spoils the filter. -/
def parse (text : String) : Option LogFilter :=
  ((splitCommas text.toList).filter (· ≠ [])).mapM LogDirective.read

/-- The directive that decides on an event outside all spans: of those that concern it a most
specific one, and of these the last. -/
def decisive (f : LogFilter) (target : String) (fields : List String) : Option LogDirective :=
  (f.filter fun d => d.concerns target fields).foldl
    (fun best d => if best.all (LogDirective.atMost · d) then some d else best) none

def shows (f : LogFilter) (target : String) (fields : List String) (level : Level) : Bool :=
  (f.decisive target fields).any (level.rank ≤ ·.most)

def ofVerbosity : Nat → LogFilter
  | 0 => [{ most := Level.error.rank }]
  | 1 => [{ most := Level.info.rank }]
  | _ => [{ most := Level.debug.rank }]

/-- The filter after a series of set-ups, of which only the first counts. A valid setting from
the environment goes before the verbosity; without a set-up nothing is shown. -/
def installed (setting : Option String) : List Nat → LogFilter
  | [] => []
  | verbosity :: _ => (setting.bind parse).getD (ofVerbosity verbosity)

end LogFilter
end ScriptHost
