import ProbeCoverage.Cover.Kind

/-!
Which kind a child has. The parent decides first; where it has no opinion, the child's shape
decides. Some parents take only certain shapes in some places, and a tree with another one there
cannot be covered.
-/

namespace ProbeCoverage.Cover

open Ast (Shape)

inductive BuildError where
  | unknownShape (tag : String)
  | arity (shape : Shape) (found : Nat)
  /-- A child that its parent cannot hold; the parent is `none` for the wrapper of a program. -/
  | unexpectedChild (parent : Option Shape) (index : Nat) (shape : Shape)
  | template (error : Template.Error)

def BuildError.message : BuildError → String
  | .unknownShape tag => "no coverage strategy for grammar shape `" ++ tag ++ "`"
  | .arity shape found =>
      "`" ++ shape.tag ++ "` expects " ++ shape.arity.text ++ " children, found " ++
        toString found
  | .unexpectedChild parent index shape =>
      "`" ++ (parent.elim "root" Shape.tag) ++ "` cannot hold a `" ++ shape.tag ++
        "` at child " ++ toString index
  | .template error => error.message

def targetKind? (shape : Shape) : Option Kind :=
  if shape.isVariableAssignment then some .variableTarget
  else
    match shape with
    | .casgn => some .variableTarget
    | .send => some .setterTarget
    | _ => none

/-- The kind that the parent asks for at `index` of `count`, or nothing when it cannot hold the
shape there. -/
def kindBelow? (parent : Kind) (index count : Nat) (shape : Shape) : Option Kind :=
  let between := decide (0 < index) && decide (index < count - 1)
  match parent with
  | .caseDispatch =>
      if between then (if shape = .whenOf then some .whenClause else none)
      else some (.ofShape shape)
  | .whenClause =>
      if index < count - 1 then some (if shape = .splat then .splatMatcher else .matcher)
      else some (.ofShape shape)
  | .guarded =>
      if between then (if shape = .resbody then some .handler else none)
      else some (.ofShape shape)
  | .block =>
      if index = 0 then
        match shape with
        | .send | .superCall | .zsuper | .yield => some .blockCall
        | _ => none
      else some (.ofShape shape)
  | .classBody =>
      if index = 0 then (if shape = .const then some .name else none)
      else some (.ofShape shape)
  | .multipleAssignment =>
      if index = 0 then (if shape = .mlhs then some .targetList else none)
      else some (.ofShape shape)
  | .targetList =>
      match shape with
      | .splat => some .splatTarget
      | .mlhs => some .targetList
      | _ => targetKind? shape
  | .splatTarget => targetKind? shape
  | .operatorAssignment | .booleanAssignment =>
      if index = 0 then
        if shape.isVariableAssignment then some .variableAccess
        else
          match shape with
          | .send => some .callAccess
          | .casgn => some .constantAssignment
          | _ => none
      else some (.ofShape shape)
  | _ => some (.ofShape shape)

def classify (parent : Kind) (parentShape : Option Shape) (index count : Nat) (shape : Shape) :
    Except BuildError Kind :=
  match kindBelow? parent index count shape with
  | some kind => .ok kind
  | none => .error (.unexpectedChild parentShape index shape)

end ProbeCoverage.Cover
