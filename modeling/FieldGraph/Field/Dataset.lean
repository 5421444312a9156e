import FieldGraph.Field.Resolve
import FieldGraph.Field.Schema

/-!
# The question-and-answer schema

Posts with their authors, comments and answers. In a compiled document every child points at its
parent through an edge named after the field, so a field is the incoming edge of its name.
-/
namespace FieldGraph.Schema

def queryType : String := "Query"

/-- Nodes that point here through an edge of the given type. -/
def children (multiplicity : Multiplicity) (edgeType : String) : Resolver :=
  .relation multiplicity (some edgeType) .incoming none

/-- Nodes of a label at which this one points through an edge of the given type. -/
def parents (multiplicity : Multiplicity) (edgeType label : String) : Resolver :=
  .relation multiplicity (some edgeType) .outgoing (some label)

def propertyField (name : String) : FieldDef := .scalar name (.property name)

def identityField : FieldDef := .scalar "_id" .identity

def authorField : FieldDef := .object "user" "User" (children .single "user")

def commentsField : FieldDef := .list "comments" "Comment" (children .many "comment")

def postType : TypeDef := .object "Post" [
  identityField, propertyField "id", propertyField "title", propertyField "body",
  propertyField "creation", propertyField "score", authorField, commentsField,
  .list "answers" "Answer" (children .many "answer")]

def commentType : TypeDef := .object "Comment" [
  identityField, propertyField "id", propertyField "body", authorField]

def answerType : TypeDef := .object "Answer" [
  identityField, propertyField "id", propertyField "body", propertyField "creation",
  propertyField "score", authorField, propertyField "accepted", commentsField,
  .object "answers" "Post" (parents .single "comment" "Post")]

def userType : TypeDef := .object "User" [
  identityField, propertyField "id", propertyField "name",
  .list "posts" "Post" (parents .many "user" "Post"),
  .list "comments" "Comment" (parents .many "user" "Comment"),
  .list "answers" "Answer" (parents .many "user" "Answer")]

def resultType : TypeDef := .union "SearchResult" ["Post", "Comment", "Answer", "User"]

def entryType : TypeDef := .object queryType [
  ⟨"search", .list "SearchResult", .search, [(keywordsArgument, .string "")]⟩,
  .list "posts" "Post" (.collection "Post"),
  .list "users" "User" (.collection "User")]

def dataset : Schema :=
  ofTypes [postType, commentType, answerType, userType, resultType, entryType]

end FieldGraph.Schema
