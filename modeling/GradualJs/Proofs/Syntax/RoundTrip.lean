import GradualJs.Syntax.OfJson
import GradualJs.Syntax.ToJson
import Mathlib.Data.List.Nodup
import Mathlib.Tactic.Common

/-! Programs are read back from the JSON that they are written as. The decoders count the levels
they descend, and the height of what was written is enough for all of them: what holds at one
level more follows from what holds at the level below. -/
namespace GradualJs

open Decode TypeExprKind List

namespace Json

/-- The value can be descended in fewer than the given number of levels. -/
def Within (levels : Nat) (j : Json) : Prop := j.height < levels

variable {α : Type}

lemma height_le_heightItems {item : Json} (member : item ∈ items) : item.height ≤ heightItems items := by
  induction items with
  | nil => cases member
  | cons first rest ih =>
    rw [heightItems]
    rcases mem_cons.mp member with rfl | later
    · exact Nat.le_max_left _ _
    · exact Nat.le_trans (ih later) (Nat.le_max_right _ _)

lemma heightFields_eq (fields : List (String × Json)) : heightFields fields = heightItems (fields.map (·.2)) := by
  induction fields <;> simp_all [heightFields,heightItems]

lemma Within.fields {fields : List (String × Json)}
    (within : (object fields).Within (levels + 1)) : ∀ field ∈ fields, field.2.Within levels := by
  intro field member
  have below := height_le_heightItems (mem_map_of_mem (f := (·.2)) member)
  simp only [Within,height,heightFields_eq] at within ⊢
  omega

lemma Within.items {items : List Json} (within : (array items).Within levels) : ∀ item ∈ items, item.Within levels := by
  intro item member
  have below := height_le_heightItems member
  simp only [Within,height] at within ⊢
  omega

lemma Within.parts {fields : List (String × Json)} (within : (object fields).Within levels) :
    ∀ field ∈ fields, field.2.Within levels := Within.fields (Nat.lt_succ_of_lt within)

lemma Within.payload {payload : Json} (within : (tagged tag payload).Within (levels + 1)) : payload.Within levels :=
  within.fields _ (mem_singleton_self _)

lemma Within.inner {fields : List (String × Json)}
    (within : (tagged tag (.object fields)).Within (levels + 1)) : ∀ field ∈ fields, field.2.Within levels :=
  within.payload.parts

/-- Whatever is written within the levels is read back. -/
def Reads (levels : Nat) (decode : Json → Option α) (encode : α → Json) : Prop :=
  ∀ a, (encode a).Within levels → decode (encode a) = some a

section Decoding
variable {fields : List (String × Json)}

@[simp] lemma structure?_object (distinct : (fields.map (·.1)).Nodup) :
    structure? names (.object fields) = some (findField fields) := by
  simp only [structure?]
  rw [if_pos]
  refine all_eq_true.mpr fun name _ => decide_eq_true ?_
  have once := nodup_iff_count_le_one.mp distinct name
  rw [count,countP_map,countP_eq_length_filter] at once
  exact once

@[simp] lemma inlineStructure?_object (form : Form) (names : List String) (fields : List (String × Json)) :
    inlineStructure? form names (.object fields) = structure? names (.object fields) := by
  cases form <;> rfl

@[simp] lemma findField_cons (key name : String) (value : Json) (rest : List (String × Json)) :
    findField ((key,value) :: rest) name = if key = name then some value else findField rest name := by
  by_cases eq : key = name <;> simp [findField,eq]

lemma findField_of_mem (distinct : (fields.map (·.1)).Nodup) :
    ∀ field ∈ fields, findField fields field.1 = some field.2 := by
  induction fields with
  | nil => nofun
  | cons first rest ih =>
    obtain ⟨key,value⟩ := first
    rw [map_cons,nodup_cons] at distinct
    refine forall_mem_cons.mpr ⟨by simp,fun field member => ?_⟩
    have differ : key ≠ field.1 := fun eq => distinct.1 (mem_map.mpr ⟨field,member,eq.symm⟩)
    rw [findField_cons,if_neg differ,ih distinct.2 field member]

/-- To read a structure it is enough to know what stands under the names of its fields. -/
lemma bind_structure? (distinct : (fields.map (·.1)).Nodup)
    (reads : ∀ read : Fields, (∀ field ∈ fields, read field.1 = some field.2) → f read = some a) :
    structure? names (.object fields) >>= f = some a := by
  rw [structure?_object distinct]
  exact reads _ (findField_of_mem distinct)

@[simp] lemma alternative?_string (tag : String) : alternative? (.string tag) = some (tag,none) := rfl

@[simp] lemma alternative?_tagged (tag : String) (payload : Json) :
    alternative? (tagged tag payload) = some (tag,some payload) := rfl

@[simp] lemma string?_string (s : String) : string? (.string s) = some s := rfl
@[simp] lemma bool?_bool (b : Bool) : bool? (.bool b) = some b := rfl
@[simp] lemma nat?_nat (n : Nat) : nat? (nat n) = some n := rfl

@[simp] lemma Fields.required_eq (fields : Fields) (name : String) (decode : Json → Option α) :
    fields.required name decode = (fields name).bind decode := rfl

@[simp] lemma Fields.defaulted_eq (fields : Fields) (name : String) (decode : Json → Option α) (default : α) :
    fields.defaulted name decode default = (fields name).elim (some default) decode := by
  unfold defaulted
  cases fields name <;> rfl

end Decoding

def orNull (decode : Json → Option α) : Json → Option (Option α)
  | .null => some none
  | j => (decode j).map some

@[simp] lemma Fields.optional_eq (fields : Fields) (name : String) (decode : Json → Option α) :
    fields.optional name decode = (fields name).elim (some none) (orNull decode) := by
  unfold optional
  split <;> simp_all [orNull]

lemma Reads.list (reads : Reads levels decode encode) {list : List α}
    (within : (array (list.map encode)).Within levels) :
    listOf decode (.array (list.map encode)) = some list := by
  have each : ∀ a ∈ list, decode (encode a) = some a := fun a member =>
    reads a (within.items _ (mem_map_of_mem member))
  clear within
  simp only [listOf]
  induction list with
  | nil => rfl
  | cons a rest ih =>
    obtain ⟨first,others⟩ := forall_mem_cons.mp each
    rw [map_cons,mapM_cons,first,ih others]
    rfl

lemma Reads.orNull (reads : Reads levels decode encode) (legible : ∀ a, encode a ≠ .null)
    (within : (Json.optional encode value).Within levels) :
    orNull decode (Json.optional encode value) = some value := by
  cases value with
  | none => rfl
  | some a =>
    unfold Json.orNull
    split
    · next null => exact absurd null (legible a)
    · rw [Json.optional,reads a within,Option.map_some]

end Json

open Json

/-! Tags are read back because no two alternatives share one. -/

@[simp] lemma UnaryOperator.ofJson?_tag (o : UnaryOperator) : ofJson? (.string o.tag) = some o := by
  cases o <;> rfl

@[simp] lemma UpdateOperator.ofJson?_tag (o : UpdateOperator) : ofJson? (.string o.tag) = some o := by
  cases o <;> rfl

@[simp] lemma LogicalOperator.ofJson?_tag (o : LogicalOperator) : ofJson? (.string o.tag) = some o := by
  cases o <;> rfl

@[simp] lemma BinaryOperator.ofJson?_tag (o : BinaryOperator) : ofJson? (.string o.tag) = some o := by
  cases o <;> rfl

@[simp] lemma VarKind.ofJson?_tag (kind : VarKind) : ofJson? (.string kind.tag) = some kind := by
  cases kind <;> rfl

@[simp] lemma MemberKind.ofJson?_tag (kind : MemberKind) : ofJson? (.string kind.tag) = some kind := by
  cases kind <;> rfl

@[simp] lemma DeclarationKind.ofJson?_tag (kind : DeclarationKind) : ofJson? (.string kind.tag) = some kind := by
  cases kind <;> rfl

@[simp] lemma AccessDiscipline.ofJson?_tag (access : AccessDiscipline) :
    ofJson? (.string access.tag) = some access := by
  cases access <;> rfl

@[simp] lemma Span.ofJson?_toJson (s : Span) : ofJson? s.toJson = some s := by
  simp [ofJson?,toJson]

@[simp] lemma typeExprsToJson_eq (list : List TypeExpr) : typeExprsToJson list = list.map TypeExpr.toJson := by
  induction list <;> simp_all [typeExprsToJson]

@[simp] lemma recordFieldsToJson_eq (list : List RecordField) :
    recordFieldsToJson list = list.map RecordField.toJson := by
  induction list <;> simp_all [recordFieldsToJson]

@[simp] lemma optionalTypeExprToJson_eq (e : Option TypeExpr) :
    optionalTypeExprToJson e = optional TypeExpr.toJson e := by
  cases e <;> rfl

@[simp] lemma TypeExpr.toJson_ne_null (e : TypeExpr) : e.toJson ≠ .null := by
  cases e
  simp [toJson]

/-- All parts of annotations that are written within the levels are read back. -/
structure TypesRead (form : Form) (levels : Nat) : Prop where
  typeExpr : Reads levels (typeExpr form levels) TypeExpr.toJson
  kind : Reads levels (typeExprKind form levels) toJson
  field : Reads levels (recordField form levels) RecordField.toJson
  function : Reads levels (functionTypeExpr form levels) FunctionTypeExpr.toJson

lemma TypesRead.kind_succ (below : TypesRead form levels) :
    Reads (levels + 1) (typeExprKind form (levels + 1)) toJson := by
  intro kind within
  cases kind with
  | any | unknown => simp [toJson,typeExprKind]
  | named name args =>
    have inside := within.inner
    simp at inside
    simp [toJson,typeExprKind,below.typeExpr.list inside.2]
  | nullable inner | nonNull inner | optional inner | rest inner =>
    simp [toJson,typeExprKind,below.typeExpr inner within.payload]
  | union members =>
    simp only [toJson,typeExprsToJson_eq] at within
    simp [toJson,typeExprKind,below.typeExpr.list within.payload]
  | record fields =>
    simp only [toJson,recordFieldsToJson_eq] at within
    simp [toJson,typeExprKind,below.field.list within.payload]
  | function shape =>
    simp [toJson,typeExprKind,below.function shape within.payload]

lemma typesRead (form : Form) : (levels : Nat) → TypesRead form levels
  | 0 => ⟨nofun,nofun,nofun,nofun⟩
  | levels + 1 => by
    have below := typesRead form levels
    refine ⟨?_,below.kind_succ,?_,?_⟩
    · rintro ⟨kind,span⟩ within
      have inside := within.fields
      simp at inside
      simp [TypeExpr.toJson,typeExpr,below.kind kind inside.1]
    · rintro ⟨name,typeExpr⟩ within
      have inside := within.fields
      simp at inside
      simp [RecordField.toJson,recordField,below.typeExpr.orNull TypeExpr.toJson_ne_null inside.2]
    · rintro ⟨thisType,newType,parameters,returnType⟩ within
      have inside := within.fields
      simp at inside
      simp [FunctionTypeExpr.toJson,functionTypeExpr,below.typeExpr.list,inside,
        below.typeExpr.orNull TypeExpr.toJson_ne_null]

/-! Comments, names and literals are read without descending further. -/
section Leaves

variable {α : Type}

lemma Json.Reads.of_all (all : ∀ a, decode (encode a) = some a) : Reads levels decode encode := fun a _ => all a

lemma Json.orNull_optional (all : ∀ a, decode (encode a) = some a)
    (legible : ∀ a, encode a ≠ .null) (value : Option α) :
    orNull decode (optional encode value) = some value :=
  (Reads.of_all all).orNull legible (Nat.lt_succ_self _)

lemma Json.listOf_map (all : ∀ a, decode (encode a) = some a) (list : List α) :
    listOf decode (.array (list.map encode)) = some list :=
  (Reads.of_all all).list (Nat.lt_succ_self _)

@[simp] lemma Json.strings?_strings (texts : List String) : strings? (strings texts) = some texts :=
  listOf_map string?_string texts

@[simp] lemma Identifier.decode_toJson (id : Identifier) : identifier id.toJson = some id := by
  simp [identifier,toJson]

@[simp] lemma Literal.decode_toJson (value : Literal) : literal value.toJson = some value := by
  cases value <;> simp [literal,toJson,float?,Number.toFloat]

lemma reads_paramTag (form : Form) : Reads levels (paramTag form levels) ParamTag.toJson := by
  rintro ⟨name,typeExpr⟩ within
  have inside := within.parts
  simp at inside
  simp [paramTag,ParamTag.toJson,(typesRead form levels).typeExpr typeExpr inside.2]

lemma reads_doc (form : Form) : Reads levels (Decode.doc form levels) JsDoc.toJson := by
  intro doc within
  have types := (typesRead form levels).typeExpr
  have inside := within.parts
  simp at inside
  refine bind_structure? (by simp) fun read found => ?_
  simp at found
  simp [found,types.orNull TypeExpr.toJson_ne_null,types.list,(reads_paramTag form).list,inside,
    orNull_optional DeclarationKind.ofJson?_tag,orNull_optional AccessDiscipline.ofJson?_tag]

end Leaves

@[simp] lemma expressionsToJson_eq (list : List Expression) : expressionsToJson list = list.map Expression.toJson := by
  induction list <;> simp_all [expressionsToJson]

@[simp] lemma propertiesToJson_eq (list : List ObjectProperty) :
    propertiesToJson list = list.map ObjectProperty.toJson := by
  induction list <;> simp_all [propertiesToJson]

@[simp] lemma declaratorsToJson_eq (list : List Declarator) : declaratorsToJson list = list.map Declarator.toJson := by
  induction list <;> simp_all [declaratorsToJson]

@[simp] lemma membersToJson_eq (list : List ClassMember) : membersToJson list = list.map ClassMember.toJson := by
  induction list <;> simp_all [membersToJson]

@[simp] lemma casesToJson_eq (list : List SwitchCase) : casesToJson list = list.map SwitchCase.toJson := by
  induction list <;> simp_all [casesToJson]

@[simp] lemma statementsToJson_eq (list : List Statement) : statementsToJson list = list.map Statement.toJson := by
  induction list <;> simp_all [statementsToJson]

@[simp] lemma optionalExpressionToJson_eq (value : Option Expression) :
    optionalExpressionToJson value = optional Expression.toJson value := by
  cases value <;> rfl

@[simp] lemma optionalBlockToJson_eq (value : Option Block) :
    optionalBlockToJson value = optional Block.toJson value := by
  cases value <;> rfl

@[simp] lemma optionalHandlerToJson_eq (value : Option CatchClause) :
    optionalHandlerToJson value = optional CatchClause.toJson value := by
  cases value <;> rfl

@[simp] lemma optionalStatementToJson_eq (value : Option Statement) :
    optionalStatementToJson value = optional Statement.toJson value := by
  cases value <;> rfl

@[simp] lemma Identifier.toJson_ne_null (id : Identifier) : id.toJson ≠ .null := by
  simp [toJson]

@[simp] lemma Expression.toJson_ne_null (value : Expression) : value.toJson ≠ .null := by
  cases value
  simp [toJson]

@[simp] lemma Block.toJson_ne_null (value : Block) : value.toJson ≠ .null := by
  cases value
  simp [toJson]

@[simp] lemma CatchClause.toJson_ne_null (value : CatchClause) : value.toJson ≠ .null := by
  cases value
  simp [toJson]

@[simp] lemma Statement.toJson_ne_null (s : Statement) : s.toJson ≠ .null := by
  cases s <;> simp [toJson,tagged]

lemma reads_optionalDoc {doc : Option JsDoc} (within : (optionalDocToJson doc).Within levels) :
    orNull (Decode.doc form levels) (optionalDocToJson doc) = some doc :=
  (reads_doc form).orNull (fun doc => by simp [JsDoc.toJson]) within

/-- All parts of programs that are written within the levels are read back. -/
structure TreesRead (form : Form) (levels : Nat) : Prop where
  expression : Reads levels (expression form levels) Expression.toJson
  kind : Reads levels (expressionKind form levels) ExpressionKind.toJson
  property : Reads levels (objectProperty form levels) ObjectProperty.toJson
  function : Reads levels (functionLiteral form levels) FunctionLiteral.toJson
  block : Reads levels (block form levels) Block.toJson
  declarator : Reads levels (declarator form levels) Declarator.toJson
  member : Reads levels (classMember form levels) ClassMember.toJson
  classDecl : Reads levels (classDeclaration form levels) ClassDeclaration.toJson
  handler : Reads levels (catchClause form levels) CatchClause.toJson
  switchCase : Reads levels (switchCase form levels) SwitchCase.toJson
  statement : Reads levels (statement form levels) Statement.toJson

namespace TreesRead

lemma expression? (read : TreesRead form levels) (within : (optional Expression.toJson value).Within levels) :
    orNull (Decode.expression form levels) (optional Expression.toJson value) = some value :=
  read.expression.orNull Expression.toJson_ne_null within

lemma statement? (read : TreesRead form levels) (within : (optional Statement.toJson value).Within levels) :
    orNull (Decode.statement form levels) (optional Statement.toJson value) = some value :=
  read.statement.orNull Statement.toJson_ne_null within

lemma kind_succ (below : TreesRead form levels) :
    Reads (levels + 1) (expressionKind form (levels + 1)) ExpressionKind.toJson := by
  intro kind within
  cases kind with
  | literal | identifier | this => simp [ExpressionKind.toJson,expressionKind]
  | function literal =>
    simp [ExpressionKind.toJson,expressionKind,below.function literal within.payload]
  | cast typeExpr operand =>
    have inside := within.inner
    simp at inside
    simp [ExpressionKind.toJson,expressionKind,below.expression operand inside.2,
      (typesRead form levels).typeExpr typeExpr inside.1]
  | object properties =>
    have inside := within.inner
    simp at inside
    simp [ExpressionKind.toJson,expressionKind,below.property.list inside]
  | assignment op tgt value =>
    have inside := within.inner
    simp at inside
    simp [ExpressionKind.toJson,expressionKind,below.expression _ inside.2.1,
      below.expression _ inside.2.2,orNull_optional BinaryOperator.ofJson?_tag]
  | member | index | call | new | array | unary | update | binary | logical | conditional =>
    have inside := within.inner
    simp at inside
    simp [ExpressionKind.toJson,expressionKind,below.expression _,below.expression.list,inside]

lemma statement_succ (below : TreesRead form levels) :
    Reads (levels + 1) (Decode.statement form (levels + 1)) Statement.toJson := by
  intro s within
  cases s with
  | block body => simp [Statement.toJson,Decode.statement,below.block body within.payload]
  | classDecl d => simp [Statement.toJson,Decode.statement,below.classDecl d within.payload]
  | breakStmt | continueStmt | empty => simp [Statement.toJson,Decode.statement]
  | var | function | tryStmt | switch =>
    have inside := within.inner
    simp at inside
    simp [Statement.toJson,Decode.statement,reads_optionalDoc,below.declarator.list,
      below.function _,below.block _,below.handler.orNull CatchClause.toJson_ne_null,
      below.block.orNull Block.toJson_ne_null,below.expression _,below.switchCase.list,inside]
  | expression | returnStmt | ifStmt | whileLoop | doWhile | forLoop | forIn | throwStmt =>
    have inside := within.inner
    simp at inside
    simp [Statement.toJson,Decode.statement,reads_optionalDoc,below.expression _,
      below.expression?,below.statement _,below.statement?,inside,
      orNull_optional VarKind.ofJson?_tag]

end TreesRead

lemma treesRead (form : Form) : (levels : Nat) → TreesRead form levels
  | 0 => ⟨nofun,nofun,nofun,nofun,nofun,nofun,nofun,nofun,nofun,nofun,nofun⟩
  | levels + 1 => by
    have below := treesRead form levels
    refine ⟨?_,below.kind_succ,?_,?_,?_,?_,?_,?_,?_,?_,below.statement_succ⟩
    · rintro ⟨span,kind⟩ within
      have inside := within.fields
      simp at inside
      simp [Expression.toJson,Decode.expression,below.kind kind inside.2]
    · rintro ⟨key,value,jsdoc,span⟩ within
      have inside := within.fields
      simp at inside
      simp [ObjectProperty.toJson,Decode.objectProperty,reads_optionalDoc,below.expression _,inside]
    · rintro ⟨id,name,parameters,body,jsdoc,isArrow,span⟩ within
      have inside := within.fields
      simp at inside
      simp [FunctionLiteral.toJson,Decode.functionLiteral,reads_optionalDoc,below.block _,
        listOf_map Identifier.decode_toJson,orNull_optional string?_string,inside]
    · rintro ⟨statements,span⟩ within
      have inside := within.fields
      simp at inside
      simp [Block.toJson,Decode.block,below.statement.list inside.1]
    · rintro ⟨name,jsdoc,initializer⟩ within
      have inside := within.fields
      simp at inside
      simp [Declarator.toJson,Decode.declarator,reads_optionalDoc,below.expression?,inside]
    · rintro ⟨name,kind,function⟩ within
      have inside := within.fields
      simp at inside
      simp [ClassMember.toJson,Decode.classMember,below.function _,inside]
    · rintro ⟨name,superclass,members,jsdoc,span⟩ within
      have inside := within.fields
      simp at inside
      simp [ClassDeclaration.toJson,Decode.classDeclaration,reads_optionalDoc,below.expression?,
        below.member.list,inside]
    · rintro ⟨parameter,body⟩ within
      have inside := within.fields
      simp at inside
      simp [CatchClause.toJson,Decode.catchClause,below.block _,inside, orNull_optional Identifier.decode_toJson]
    · rintro ⟨test,body⟩ within
      have inside := within.fields
      simp at inside
      simp [SwitchCase.toJson,Decode.switchCase,below.expression?,below.statement.list,inside]

/-- What a program is written as is read as the program. -/
theorem program_reads_back (p : Program) : Program.ofJson? p.toJson = some p := by
  have within : p.toJson.Within (p.toJson.height + 1) := Nat.lt_succ_self _
  have inside := within.parts
  unfold Program.ofJson?
  generalize p.toJson.height + 1 = levels at inside
  simp at inside
  simp [program,Program.toJson,(treesRead _ levels).statement.list inside]

end GradualJs
