import ZeroTouch.Common.Text
/-!
# The gnmi command grammar

`parse_gnmi` of `gnmi_command.cpp`: what an already tokenised SMS body
means to the gnmi layer. A message that does not open with `IOT GNMI` is
handed back to the classic engine; one that does is a read, a write, or a
malformed command with the reason.
-/

namespace ZeroTouch

/-- `GnmiKind`. -/
inductive GnmiKind
  /-- Not an `IOT GNMI …` message. -/
  | notGnmi
  /-- `IOT GNMI <junk>`: meant as a gnmi command but malformed. -/
  | unknown
  | get
  | set
  deriving DecidableEq, Repr

/-- `GnmiCommand`. -/
structure GnmiCommand where
  kind : GnmiKind := .notGnmi
  xpaths : List Text := []
  updates : List (Text × Text) := []
  error : Text := []
  deriving DecidableEq, Repr

/-- Case-insensitive equality with a lowercase word: equal sizes, then
every character. -/
def ieq (a b : Text) : Bool :=
  a.length == b.length && (a.zip b).all fun p => p.1.toLower == p.2

/-- The loop of `csv`, with `cur` the segment being read. -/
def csvGo : Text → Text → List Text
  | [], cur => [cur]
  | c :: s, cur => if c = ',' then cur :: csvGo s [] else csvGo s (cur ++ [c])

/-- Split a token at its commas. -/
def csv (s : Text) : List Text := csvGo s []

/-- A malformed gnmi command. -/
def GnmiCommand.malformed (error : String) : GnmiCommand :=
  { kind := .unknown, error := error.toList }

/-- `IOT GNMI GET …`: the tokens after the operation. -/
def parseGet : List Text → GnmiCommand
  | [] => .malformed "gnmi get: missing xpath"
  | xs :: _ => { kind := .get, xpaths := csv xs }

/-- `IOT GNMI SET …`: the tokens after the operation. -/
def parseSet : List Text → GnmiCommand
  | xs :: vs :: _ =>
    if (csv xs).length ≠ (csv vs).length then
      .malformed "gnmi set: xpath/value count mismatch"
    else
      { kind := .set, updates := (csv xs).zip (csv vs) }
  | _ => .malformed "gnmi set: expected <xpaths> <values>"

/-- **`parse_gnmi`.** -/
def parseGnmi : List Text → GnmiCommand
  | t₀ :: t₁ :: rest =>
    if !ieq t₀ "iot".toList || !ieq t₁ "gnmi".toList then {}
    else
      match rest with
      | [] => .malformed "gnmi: expected GET or SET"
      | op :: args =>
        if ieq op "get".toList then parseGet args
        else if ieq op "set".toList then parseSet args
        else .malformed "gnmi: unknown operation"
  | _ => {}

end ZeroTouch
