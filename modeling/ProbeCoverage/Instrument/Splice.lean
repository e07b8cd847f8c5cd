import ProbeCoverage.Instrument.Anchor
import ProbeCoverage.Instrument.Plan

/-!
Instrumenting a source text. The result is a list of pieces: text kept from the source and text
inserted for a node. Each node keeps the text of its span with the pieces of its children at their
places, between the texts of its plan. Children are put in by where they start, and may not reach
into each other or out of their parent.
-/

namespace ProbeCoverage.Instrument

open Ast (Span)
open Cover (Branch ByteRange CoverTree Covered)

inductive Piece where
  | kept (text : List Char)
  | inserted (node : Nat) (text : String)
  deriving DecidableEq, Repr

namespace Piece

def text : Piece → String
  | .kept characters => String.ofList characters
  | .inserted _ added => added

def keptText : Piece → List Char
  | .kept characters => characters
  | .inserted _ _ => []

def textOf (pieces : List Piece) : String :=
  String.join (pieces.map text)

end Piece

structure Edit where
  range : ByteRange
  child : Nat
  output : List Piece
  deriving DecidableEq, Repr

def Edit.before (first second : Edit) : Bool :=
  first.range.start < second.range.start ||
    (first.range.start == second.range.start && first.range.stop ≤ second.range.stop)

def rangeOf (span : Span) : ByteRange :=
  ⟨span.startByte, span.endByte⟩

def rangeFault? (source : List Char) (node : Nat) (range : ByteRange) : Option Error :=
  if range.stop < range.start || Text.byteCount source < range.stop then
    some (.outOfBounds node range.start range.stop (Text.byteCount source))
  else if !Text.isBoundary range.start source || !Text.isBoundary range.stop source then
    some (.charBoundary node range.start range.stop)
  else none

def keep (source : List Char) (start stop : Nat) : Except Error Piece :=
  match Text.slice? start stop source with
  | some text => .ok (.kept text)
  | none => .error (.badSlice start stop)

def splice (source : List Char) (node stop : Nat) : Nat → List Edit → Except Error (List Piece)
  | cursor, [] =>
      match keep source cursor stop with
      | .ok piece => .ok [piece]
      | .error error => .error error
  | cursor, edit :: rest =>
      if edit.range.start < cursor || stop < edit.range.stop then
        .error (.overlap node edit.child)
      else
        match rangeFault? source edit.child edit.range with
        | some error => .error error
        | none =>
            match keep source cursor edit.range.start with
            | .error error => .error error
            | .ok piece =>
                match splice source node stop edit.range.stop rest with
                | .ok pieces => .ok (piece :: edit.output ++ pieces)
                | .error error => .error error

def spliceSorted (source : List Char) (node : Nat) (range : ByteRange) (edits : List Edit) :
    Except Error (List Piece) :=
  splice source node range.stop range.start (edits.mergeSort Edit.before)

mutual

/-- The pieces of a node: its span with its children, between the texts of its plan. A node
without a span has only its plan. -/
def renderNode (tree : CoverTree) (stem : String) (source : List Char) :
    Covered → Except Error (List Piece)
  | .mk info branches =>
      match plan tree stem info.number with
      | .error error => .error error
      | .ok plan =>
          let wrap (inner : List Piece) : List Piece :=
            .inserted info.number plan.before :: inner ++ [.inserted info.number plan.after]
          match info.span with
          | none => .ok (wrap [])
          | some span =>
              match rangeFault? source info.number (rangeOf span) with
              | some error => .error error
              | none =>
                  match renderChildren tree stem source branches with
                  | .error error => .error error
                  | .ok edits =>
                      match spliceSorted source info.number (rangeOf span) edits with
                      | .ok pieces => .ok (wrap pieces)
                      | .error error => .error error

def renderChildren (tree : CoverTree) (stem : String) (source : List Char) :
    List Branch → Except Error (List Edit)
  | [] => .ok []
  | .atom _ :: rest => renderChildren tree stem source rest
  | .node child :: rest =>
      match renderNode tree stem source child with
      | .error error => .error error
      | .ok output =>
          let id := child.info.number
          match child.info.span with
          | some span =>
              match renderChildren tree stem source rest with
              | .ok edits => .ok (⟨rangeOf span, id, output⟩ :: edits)
              | .error error => .error error
          | none =>
              if (Piece.textOf output).isEmpty then renderChildren tree stem source rest
              else
                match child.info.anchor with
                | none => .error (.missingAnchor id)
                | some anchor =>
                    let offset := resolve source anchor
                    match renderChildren tree stem source rest with
                    | .ok edits => .ok (⟨⟨offset, offset⟩, id, output⟩ :: edits)
                    | .error error => .error error

end

/-- The pieces of a whole instrumented text. A root without a span stands for the whole source. -/
def pieces (tree : CoverTree) (stem : String) (source : List Char) : Except Error (List Piece) :=
  match tree.root.info.span with
  | some _ => renderNode tree stem source tree.root
  | none =>
      let id := tree.root.info.number
      let range : ByteRange := ⟨0, Text.byteCount source⟩
      match rangeFault? source id range with
      | some error => .error error
      | none =>
          match renderChildren tree stem source tree.root.branches with
          | .error error => .error error
          | .ok edits => spliceSorted source id range edits

def instrument (tree : CoverTree) (stem : String) (source : String) : Except Error String :=
  match pieces tree stem source.toList with
  | .ok pieces => .ok (Piece.textOf pieces)
  | .error error => .error error

end ProbeCoverage.Instrument
