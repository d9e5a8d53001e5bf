import InlinePolicy.Decimal.Written
import InlinePolicy.Decision.Basic

/-!
# Decisions as text

The verdict, the reason's tag, and in parentheses the numbers that are present, floats with six
places.  A trace puts the callee in front, indented by its depth.
-/

namespace InlinePolicy

/-- A float in the text of a decision. -/
def Context.floatText (x : Float) : String := Decimal.fixed 6 x

namespace Context

/-- The size of a callee, with its bound if one was computed. -/
def nodesText (nodes : UInt64) : Option Float → String
  | some maximum =>
    let relation := if nodes.toFloat ≤ maximum then "<=" else ">"
    s!"nodes={nodes} {relation} {floatText maximum}"
  | none => s!"nodes={nodes}"

/-- The parts of a context's text.  A bound is part of the size that it bounds, and the size and
the limit of the caller's graph are one part. -/
def parts (c : Context) : List String :=
  [c.previousSize.map fun size => s!"low-level-nodes={size}",
    c.invokeProbability.map fun p => s!"invokeP={floatText p}",
    c.relevance.map fun r => s!"relevance={floatText r}",
    c.probability.map fun p => s!"probability={floatText p}",
    c.bonus.map fun b => s!"bonus={floatText b}",
    c.nodes.map fun nodes => nodesText nodes c.maximumNodes,
    c.graphNodes.bind fun nodes =>
      c.maximumDesiredSize.map fun limit => s!"graph-nodes={nodes} >= {limit}"].reduceOption

/-- The text of a context: its parts, with commas between them. -/
def text (c : Context) : String := ", ".intercalate c.parts

end Context

/-- The text of a decision. -/
def Decision.text (d : Decision) : String :=
  let verdict := if d.accepted then "inlining" else "not inlining"
  let numbers := if d.context = {} then "" else s!" ({d.context.text})"
  s!"{verdict}: {d.reason.tag}{numbers}"

/-- Two blanks for each inlined frame. -/
def Trace.indent (depth : UInt64) : String := String.ofList (List.replicate (2 * depth.toNat) ' ')

/-- The text of a trace. -/
def Trace.text (t : Trace) : String :=
  match t.callee, t.callSite with
  | some callee, some site =>
    s!"{Trace.indent t.depth}{callee} {site.text} [depth {t.depth}]: {t.decision.text}"
  | some callee, none => s!"{callee} [depth {t.depth}]: {t.decision.text}"
  | none, _ => t.decision.text

end InlinePolicy
