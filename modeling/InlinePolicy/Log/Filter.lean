import InlinePolicy.Log.Event
import InlinePolicy.Text.Blank
import InlinePolicy.Text.Numeral

/-!
# Filters

A filter is a list of directives, each of which sets the level for the targets that start with a
given text.  Of the directives for a target the one with the longest text holds, and of those for
the same text the last one.  Targets without a directive are not logged.
-/

namespace InlinePolicy.Log

/-- The largest verbosity that is logged for targets that start with a text. -/
structure Directive where
  target : String
  verbosity : Nat
deriving DecidableEq, Repr

/-- The directives, in the order in which they were given. -/
abbrev Filter := List Directive

/-! ## Reading -/

/-- The verbosity with a name, in any case, or with a number; 0 is silence. -/
def readVerbosity? (text : List Char) : Option Nat :=
  match Text.readWord? text with
  | some n => if n.toNat ≤ Level.trace.verbosity then some n.toNat else none
  | none =>
    match (String.ofList text).toLower with
    | "off" => some 0
    | "error" => some Level.error.verbosity
    | "warn" => some Level.warn.verbosity
    | "info" => some Level.info.verbosity
    | "debug" => some Level.debug.verbosity
    | "trace" => some Level.trace.verbosity
    | _ => none

/-- Whether a directive may start with a character: a letter or a digit, a mark that occurs in
targets, or a bracket.  All characters beyond ASCII count as letters here. -/
def startsDirective (c : Char) : Bool :=
  c.isAlphanum || c == '-' || c == ':' || c == '_' || c == '[' || 0x80 ≤ c.toNat

/-- The directive that a word without an equals sign spells: a level for all targets, or else a
target that is logged whatever the level. -/
def Directive.ofWord (word : List Char) : Directive :=
  match readVerbosity? word with
  | some verbosity => ⟨"", verbosity⟩
  | none => ⟨String.ofList word, Level.trace.verbosity⟩

/-- The level behind an equals sign.  Without one, everything is logged. -/
def readLevel? (text : List Char) : Option Nat :=
  if text.isEmpty then some Level.trace.verbosity else readVerbosity? text

/-- Reads a directive.  Blanks in front of a target are part of it, and do not stand before a target
with a level. -/
def Directive.read? (text : List Char) : Option Directive := do
  let first ← (text.dropWhile Text.isBlank).head?
  guard (startsDirective first)
  match text.span (· ≠ '=') with
  | (word, []) => return ofWord word
  | (target, _ :: level) =>
    guard (!(target.head?.any Text.isBlank))
    return ⟨String.ofList target, ← readLevel? level⟩

namespace Filter

/-- Reads directives with commas between them, some of which may be missing; no directive at all
means errors only. -/
def read? (text : String) : Option Filter :=
  match (text.splitOn ",").filter (· ≠ "") with
  | [] => some [⟨"", Level.error.verbosity⟩]
  | directives => directives.mapM fun directive => Directive.read? directive.toList

/-- The filter if none is given. -/
def default : Filter :=
  [⟨"otter_inline", Level.info.verbosity⟩, ⟨"otterc_inline", Level.info.verbosity⟩,
    ⟨"otterc_metrics", Level.info.verbosity⟩]

/-- The filter that an environment asks for; the default one if it asks for none that can be
read. -/
def ofSetting (setting : Option String) : Filter := (setting.bind read?).getD default

/-- The more specific of two directives, and the later one of two that are equally specific. -/
def moreSpecific (earlier later : Directive) : Directive :=
  if later.target.length < earlier.target.length then earlier else later

/-- The directive that holds for a target. -/
def directive? (filter : Filter) (target : String) : Option Directive :=
  match filter.filter fun directive => directive.target.toList.isPrefixOf target.toList with
  | [] => none
  | first :: others => some (others.foldl moreSpecific first)

/-- Whether a filter lets an event pass. -/
def passes (filter : Filter) (event : Event) : Bool :=
  match filter.directive? event.target with
  | some directive => event.level.verbosity ≤ directive.verbosity
  | none => false

/-- The lines of the events that pass. -/
def lines (filter : Filter) (events : List Event) : List String :=
  (events.filter filter.passes).map Event.line

end Filter

end InlinePolicy.Log
