import SuiteMigration.Keyword.Pattern
import SuiteMigration.Robot.Cell

/-!
Bodies made from the words of a step alone. The first rule that finds one of its verbs or phrases
among the words gives the rows; a step without a known verb is only logged.
-/

set_option autoImplicit false
set_option relaxedAutoImplicit false

namespace SuiteMigration.Heuristic

open SuiteMigration.Text SuiteMigration.Robot SuiteMigration.Keyword

/-- Words that say nothing about the object of a verb. -/
def stopWords : List String :=
  ["the", "a", "an", "on", "in", "into", "to", "from", "with", "at", "of", "for", "my", "his",
   "her", "their", "text", "number", "value", "word", "is", "are", "be"]

/-- Words that end the object of a verb. -/
def phraseBreaks : List String :=
  ["and", "then", "but", "or"]

/-- The words of a step in lower case, and the arguments of its keyword. -/
structure Input where
  words : List String
  args : List String

def Input.position? (input : Input) (verbs : List String) : Option Nat :=
  input.words.findIdx? fun word ↦ verbs.contains word

/-- Whether the words of a phrase occur one after the other. -/
def hasPhrase (phrase : List String) : List String → Bool
  | [] => phrase.isEmpty
  | word :: rest => phrase.isPrefixOf (word :: rest) || hasPhrase phrase rest

/-- The variable for the object of the verb at a position. -/
def Input.objectVariable (input : Input) (position : Nat) (fallback : String) : String :=
  let phrase :=
    (((input.words.drop (position + 1)).takeWhile fun word ↦ !phraseBreaks.contains word).filter
      fun word ↦ !stopWords.contains word).take 4
  if phrase.isEmpty then scalar fallback else scalar (constant (String.intercalate "_" phrase))

structure Rule where
  verbs : List String
  phrases : List (List String) := []
  /-- The rows, given the position of the verb. -/
  rows : Input → Nat → List String

/-- The position of the verb that triggers a rule; of a phrase its first word counts. -/
def Rule.trigger? (rule : Rule) (input : Input) : Option Nat :=
  match input.position? rule.verbs with
  | some position => some position
  | none =>
      (rule.phrases.find? fun phrase ↦ hasPhrase phrase input.words).bind fun phrase ↦
        input.position? (phrase.take 1)

def verifyVerbs : List String :=
  ["verify", "verifies", "should", "see", "sees", "displayed", "visible", "shown"]

def clickRows (input : Input) (position : Nat) : List String :=
  let target := input.args.headD (input.objectVariable position "TARGET_ELEMENT")
  [row ["Click Element", target]]

def enterRows (input : Input) (position : Nat) : List String :=
  [row ["Input Text", input.objectVariable position "INPUT_FIELD", input.args.headD emptyCell]]

def navigateRows (input : Input) (_ : Nat) : List String :=
  [row ["Go To", input.args.headD (scalar "BASE_URL")]]

/-- A check for the last argument, or else for the words after the verb. -/
def verifyRows (input : Input) (position : Nat) : List String :=
  match input.args.getLast? with
  | some expected => [row ["Page Should Contain", expected]]
  | none =>
      let phrase := (input.words.drop (position + 1)).filter fun word ↦
        !stopWords.contains word && !verifyVerbs.contains word
      let text := String.intercalate " " (if phrase.isEmpty then input.words else phrase)
      ["# TODO: confirm the expected page text", row ["Page Should Contain", escapeCell text]]

def waitRows (input : Input) (_ : Nat) : List String :=
  let duration :=
    match input.args.head? with
    | some arg => arg ++ "s"
    | none => "1s"
  [row ["Sleep", duration]]

def selectRows (input : Input) (position : Nat) : List String :=
  [row ["Select From List By Label", input.objectVariable position "SELECT_LIST",
    input.args.headD emptyCell]]

/-- The rules, in the order in which they are tried. -/
def rules : List Rule :=
  [{ verbs := ["click", "clicks", "clicked", "press", "presses", "pressed", "tap", "taps", "tapped"]
     rows := clickRows },
   { verbs :=
      ["enter", "enters", "entered", "type", "types", "typed", "input", "inputs", "fill", "fills"]
     rows := enterRows },
   { verbs := ["navigate", "navigates", "open", "opens", "visit", "visits", "launch", "launches"]
     phrases := [["is", "on"], ["am", "on"], ["are", "on"], ["goes", "to"], ["go", "to"]]
     rows := navigateRows },
   { verbs := verifyVerbs, rows := verifyRows },
   { verbs := ["wait", "waits", "waited"], rows := waitRows },
   { verbs := ["select", "selects", "selected", "choose", "chooses"], rows := selectRows }]

/-- Rows that only log a step. -/
def logRows (text : String) : List String :=
  [row ["Log", escapeCell ("Step: " ++ collapse text)], "# TODO: implement this keyword"]

/-- The words of a pattern in lower case. -/
def patternWords (pattern : String) : List String :=
  ((words (ofPattern pattern).name).flatMap identifierWords).map toLower

/-- The rows for a step pattern whose keyword has the given arguments. -/
def rowsOfPattern (pattern : String) (args : List String) : List String :=
  let input : Input := ⟨patternWords pattern, args⟩
  (rules.findSome? fun rule ↦ (rule.trigger? input).map (rule.rows input)).getD (logRows pattern)

end SuiteMigration.Heuristic
