import FlowTrace.Text.LetterCase

/-! # Source languages

The languages that can be analysed, their names on the wire and the names shown to a reader. -/

namespace FlowTrace

/-- A **source language**. -/
inductive Language where
  /-- Python. -/
  | python
  /-- C++. -/
  | cpp
  /-- Java. -/
  | java
  deriving DecidableEq, Repr

namespace Language

/-- The name by which requests select the language. -/
def name : Language → Text
  | python => "python"
  | cpp => "cpp"
  | java => "java"

/-- The name shown in messages. -/
def title : Language → Text
  | python => "Python"
  | cpp => "C++"
  | java => "Java"

/-- All languages, in display order. -/
def all : List Language := [python, cpp, java]

/-- The language with exactly this name. -/
def ofName? (text : Text) : Option Language := all.find? fun language => language.name == text

/-- A name as a user may write it, without blanks around it and in lower case. -/
def normalizeName (text : Text) : Text := text.trim.lower

/-- Every language has a name that reads back as the language. -/
@[simp] theorem ofName?_name (language : Language) : ofName? language.name = some language := by
  cases language <;> decide

end Language

end FlowTrace
