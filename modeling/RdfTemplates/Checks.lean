import RdfTemplates.Query.Basic
import RdfTemplates.Message

/-!
# Checks of templates

A check is a query together with a message for each of its answers. The same
message is given once.
-/

namespace RdfTemplates

/-- A query, and what is said about each tuple that it finds. -/
structure Check where
  name : String
  query : Query
  message : Tuple → Reading Message

namespace Check

/-- The messages of the answers as they are met. -/
def collect (message : Tuple → Reading Message) (answers : Answers) : Reading Messages :=
  answers.foldM (fun ms t => return ms.pushUnique (← message t)) []

/-- The messages about what the query finds, each of them once. -/
def run (c : Check) (store : Store) : Reading Messages := do
  collect c.message (← c.query.run store)

/-- The messages of several checks. -/
def runAll (checks : List Check) (store : Store) : Reading Messages :=
  checks.foldlM (fun (ms : Messages) c => return (← c.run store).foldl .pushUnique ms) []

def temp : Var := .named "Temp"
def temp1 : Var := .named "Temp1"
def temp2 : Var := .named "Temp2"
def ins : Var := .named "Ins"
def ins1 : Var := .named "Ins1"
def ins2 : Var := .named "Ins2"
def args : Var := .named "Args"
def index : Var := .named "Index"
def index1 : Var := .named "Index1"
def index2 : Var := .named "Index2"
def arg : Var := .named "Arg"
def arg1 : Var := .named "Arg1"
def arg2 : Var := .named "Arg2"
def val : Var := .named "Val"
def level : Var := .named "Lvl"
def level1 : Var := .named "Lvl1"
def level2 : Var := .named "Lvl2"
def params : Var := .named "Params"
def params1 : Var := .named "Params1"
def params2 : Var := .named "Params2"
def type : Var := .named "Type"
def type1 : Var := .named "Type1"
def type2 : Var := .named "Type2"

/-- The texts of a message with values of the tuple between them. -/
def compose (parts : List (Tuple → Reading String)) (t : Tuple) :
    Reading String :=
  return String.join (← parts.mapM fun part => part t)

/-- A piece of a message that is always the same. -/
def say (text : String) (_ : Tuple) : Reading String := .ok text

/-- A piece of a message with what a variable is bound to. -/
def value (v : Var) (t : Tuple) : Reading String := t.written v

/-- A piece of a message with a position that a variable is bound to. -/
def place (v : Var) (t : Tuple) : Reading String := t.position v

def error (parts : List (Tuple → Reading String)) (t : Tuple) :
    Reading Message :=
  return .error (← compose parts t)

def warning (parts : List (Tuple → Reading String)) (t : Tuple) :
    Reading Message :=
  return .warning (← compose parts t)

/-- A body instantiates a template of which nothing is known. -/
def undefinedTemplate : Check where
  name := "undefined-template"
  query := .all (.relation (.template temp))
    [.bodyInstance 0 temp ins, .relation (.instanceIri ins temp2),
     .relation (.isUndefined temp2)]
  message := error
    [say "Undefined template used in ", value temp, say ": the body instantiates ", value temp2,
     say ", which has no signature or definition"]

/-- An instance has more or fewer arguments than its template has parameters. -/
def wrongNumberOfArguments : Check where
  name := "wrong-number-of-arguments"
  query :=
    let given := Var.named "Len1"
    let expected := Var.named "Len2"
    .all (.relation (.template temp))
      [.bodyInstance 0 temp ins, .relation (.instanceIri ins temp2),
       .relation (.arguments ins args), .relation (.length args given),
       .relation (.parameters temp2 params), .relation (.length params expected),
       .relation (.notEquals given expected)]
  message := error
    [say "Wrong number of arguments in instance ", value ins, say " of template ", value temp,
     say ": ", value (.named "Len1"), say " arguments given, but ", value temp2, say " expects ",
     value (.named "Len2"), say " ", value params]

/-- A parameter that may be blank is given to a non-blank one. -/
def inconsistentNonBlankFlags : Check where
  name := "inconsistent-non-blank-flags"
  query := .all (.relation (.template temp1))
    [.relation (.parameters temp1 params1), .relation (.index params1 index1 val),
     .not (.relation (.isNonBlank params1 index1)),
     .bodyInstance 0 temp1 ins, .argumentIndex 1 ins index2 val,
     .relation (.instanceIri ins temp2), .relation (.parameters temp2 params2),
     .relation (.isNonBlank params2 index2)]
  message := error
    [say "Inconsistent non-blank flags in template ", value temp1, say ": parameter ", value val,
     say " is not non-blank, but is passed as arg no. ", place index2, say " to ", value temp2,
     say ", whose parameter is non-blank"]

/-- A template depends on itself. -/
def cyclicDependency : Check where
  name := "cyclic-dependency"
  query := .and (.relation (.template temp)) (.relation (.dependsTransitive temp temp))
  message := error
    [say "Cyclic dependency in template ", value temp, say ": it transitively instantiates itself"]

/-- A parameter does not occur in the body. -/
def unusedParameter : Check where
  name := "unused-parameter"
  query :=
    let body := Var.named "Body"
    .all (.relation (.template temp))
      [.relation (.body temp body), .parameterIndex 0 temp index val,
       .not (.all (.relation (.inst body ins))
        [.argumentIndex 1 ins index2 arg, .relation (.hasOccurrenceAt arg val level)])]
  message := warning
    [say "Unused parameter in template ", value temp, say ": parameter ", value val,
     say " (arg no. ", place index, say ") does not occur in the body"]

/-- Two parameters have one name. -/
def duplicateParameter : Check where
  name := "duplicate-parameter"
  query := .all (.relation (.template temp))
    [.relation (.parameters temp params), .relation (.index params index1 val),
     .relation (.index params index2 val), .relation (.notEquals index1 index2),
     .relation (.removeSymmetry index1 index2)]
  message := error
    [say "Duplicate parameter in template ", value temp, say ": ", value val,
     say " occurs as arg no. ", place index1, say " and arg no. ", place index2]

/-- A variable of a body is not a parameter of its template. -/
def undefinedParameter : Check where
  name := "undefined-parameter"
  query := .all (.relation (.template temp))
    [.bodyInstance 0 temp ins, .argumentIndex 1 ins index arg,
     .relation (.hasOccurrenceAt arg val level), .relation (.isVariable val),
     .not (.parameterIndex 2 temp index2 val)]
  message := error
    [say "Undefined parameter in template ", value temp, say ": variable ", value val,
     say " is used in instance ", value ins, say " but is not a parameter"]

/-- A term is given to parameters of types that no single type is below. -/
def conflictingParameterTypes : Check where
  name := "conflicting-parameter-types"
  query := .all (.relation (.template temp))
    [.bodyInstance 0 temp ins1, .bodyInstance 1 temp ins2,
     .relation (.removeSymmetry ins1 ins2),
     .argumentIndex 2 ins1 index1 arg1, .relation (.hasOccurrenceAt arg1 val level1),
     .relation (.isNotNone val),
     .argumentIndex 3 ins2 index2 arg2, .relation (.hasOccurrenceAt arg2 val level2),
     .usedAsType 4 ins1 index1 level1 type1,
     .usedAsType (4 + Query.usedAsTypeWidth) ins2 index2 level2 type2,
     .not (.relation (.isSubtypeOf type1 type2)), .not (.relation (.isSubtypeOf type2 type1))]
  message := error
    [say "Type error in template ", value temp, say ": ", value val,
     say " is passed to incompatible parameter types, ", value type1, say " in instance ",
     value ins1, say " (arg no. ", place index1, say ") and ", value type2, say " in instance ",
     value ins2, say " (arg no. ", place index2, say ")"]

/-- The type a constant has of itself does not suit the place where it stands. -/
def conflictingIntrinsicType : Check where
  name := "conflicting-intrinsic-type"
  query :=
    let intrinsic := Var.named "Intrinsic"
    let used := Var.named "UsedAs"
    .all (.relation (.template temp))
      [.bodyInstance 0 temp ins, .argumentIndex 1 ins index arg,
       .relation (.hasOccurrenceAt arg val level), .not (.relation (.isVariable val)),
       .relation (.typeOf val intrinsic), .usedAsType 2 ins index level used,
       .not (.relation (.isCompatibleWith intrinsic used))]
  message := error
    [say "Type error in template ", value temp, say ": ", value val, say " has type ",
     value (.named "Intrinsic"), say ", incompatible with parameter type ",
     value (.named "UsedAs"), say " in instance ", value ins, say " (arg no. ", place index,
     say ")"]

/-- An instance says how to expand lists and marks none. -/
def modifierWithoutMarkedArgument : Check where
  name := "modifier-without-marked-argument"
  query := .all (.relation (.template temp))
    [.bodyInstance 0 temp ins, .relation (.hasExpander ins),
     .not (.and (.relation (.arguments ins args)) (.relation (.hasListExpander args index)))]
  message := error
    [say "Template ", value temp, say " has instance ", value ins,
     say " with a list expander but no argument marked for expansion"]

/-- An argument is marked and the instance does not say how to expand it. -/
def markedArgumentWithoutModifier : Check where
  name := "marked-argument-without-modifier"
  query := .all (.relation (.template temp))
    [.bodyInstance 0 temp ins, .not (.relation (.hasExpander ins)),
     .relation (.arguments ins args), .relation (.hasListExpander args index)]
  message := error
    [say "Template ", value temp, say " has instance ", value ins, say " with arg no. ",
     place index, say " marked for expansion but no list expander"]

/-- A marked argument is not of a list type. -/
def listExpanderOnNonList : Check where
  name := "list-expander-on-non-list"
  query :=
    let listType := Var.named "ListType"
    .all (.relation (.template temp))
      [.bodyInstance 0 temp ins, .relation (.hasExpander ins), .relation (.arguments ins args),
       .relation (.hasListExpander args index), .relation (.index args index val),
       .relation (.typeOf val type), .bind listType (.type (.list .top)),
       .not (.relation (.isSubtypeOf type listType))]
  message := error
    [say "Template ", value temp, say " has instance ", value ins,
     say " with a list expander on non-list argument ", value val, say " (arg no. ", place index,
     say ")"]

/-- The checks that fail when definitions are missing. -/
def onMissingInformation : List Check := [undefinedTemplate]

/-- The checks that fail only where something does not fit. -/
def onError : List Check :=
  [inconsistentNonBlankFlags, wrongNumberOfArguments, cyclicDependency, unusedParameter,
   duplicateParameter, undefinedParameter, conflictingParameterTypes, conflictingIntrinsicType,
   modifierWithoutMarkedArgument, markedArgumentWithoutModifier, listExpanderOnNonList]

/-- All checks of a library. -/
def library : List Check := onMissingInformation ++ onError

end Check

end RdfTemplates
