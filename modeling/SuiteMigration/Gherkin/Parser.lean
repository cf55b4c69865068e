import SuiteMigration.Gherkin.Feature
import SuiteMigration.Text.Basic

/-!
Reads features line by line. A later `Feature:` line starts over; free text counts only as the
description of the feature.
-/

set_option autoImplicit false
set_option relaxedAutoImplicit false

namespace SuiteMigration.Gherkin

open SuiteMigration.Text

def stepKeywords : List String :=
  ["Given", "When", "Then", "And", "But", "*"]

/-- The keyword and the text of a step line. -/
def splitStep? (line : String) : Option (String × String) :=
  stepKeywords.findSome? fun keyword ↦
    match Chars.afterStart? keyword.toList line.toList with
    | some rest =>
        if rest.head?.any isBlank then some (keyword, String.ofList (Chars.trim rest)) else none
    | none => none

/-- The cells of a table row. All bars at its ends are dropped. -/
def tableRow (line : String) : List String :=
  let isBar := fun c : Char ↦ c == '|'
  (Chars.splitOn '|' (Chars.dropEndWhile isBar ((Chars.trim line.toList).dropWhile isBar))).map
    fun cell ↦ String.ofList (Chars.trim cell)

/-- The tags on a line, up to a comment. -/
def lineTags (line : String) : List String :=
  ((words line).takeWhile fun word ↦ !startsWith word "#").filterMap (afterStart? "@")

/-- What the lines being read belong to. -/
inductive Part where
  | feature
  | background
  | scenario
  | examples
  | rule
  deriving DecidableEq, Repr

/-- A text attached to a step that has not been closed yet. -/
structure OpenDocument where
  line : Nat
  delimiter : String
  /-- Its lines so far, last line first. -/
  lines : List String

structure ParserState where
  feature : Option Feature := none
  part : Part := .feature
  tags : List String := []
  document : Option OpenDocument := none

def modifyLast {α : Type} (f : α → α) : List α → List α
  | [] => []
  | [a] => [f a]
  | a :: rest => a :: modifyLast f rest

def Feature.modifyLastScenario (f : Feature) (change : Scenario → Scenario) : Feature :=
  { f with scenarios := modifyLast change f.scenarios }

/-- Changes the step that was read last. -/
def Feature.modifyLastStep (f : Feature) (part : Part) (change : Step → Step) : Feature :=
  match part with
  | .background => { f with background := f.background.map (modifyLast change) }
  | .scenario => f.modifyLastScenario fun s ↦ { s with steps := modifyLast change s.steps }
  | _ => f

def Step.addTableRow (row : List String) (s : Step) : Step :=
  match s.attachment with
  | some (.table rows) => { s with attachment := some (.table (rows ++ [row])) }
  | _ => { s with attachment := some (.table [row]) }

def Examples.addRow (row : List String) (e : Examples) : Examples :=
  if e.header.isEmpty then { e with header := row } else { e with rows := e.rows ++ [row] }

/-- The name in a scenario heading, and whether it heads an outline. -/
def heading? (line : String) : Option (String × Bool) :=
  [("Scenario Outline:", true), ("Scenario Template:", true), ("Scenario:", false),
    ("Example:", false)].findSome? fun (start, isOutline) ↦
      (afterStart? start line).map fun name ↦ (trim name, isOutline)

/-- The delimiter with which a line opens an attached text. -/
def documentDelimiter? (line : String) : Option String :=
  if startsWith line "```" then some "```"
  else if startsWith line "\"\"\"" then some "\"\"\""
  else none

/-- A line inside an attached text. -/
def ParserState.readDocumentLine (s : ParserState) (d : OpenDocument) (line : String) :
    ParserState :=
  if line == d.delimiter then
    let text := String.intercalate "\n" d.lines.reverse
    { s with
      document := none
      feature := s.feature.map fun f ↦
        f.modifyLastStep s.part fun step ↦ { step with attachment := some (.document text) } }
  else { s with document := some { d with lines := line :: d.lines } }

/-- A table row of examples or of a step. -/
def Feature.addTableRow (f : Feature) (part : Part) (row : List String) : Feature :=
  if part == .examples then
    f.modifyLastScenario fun s ↦ { s with examples := modifyLast (Examples.addRow row) s.examples }
  else f.modifyLastStep part (Step.addTableRow row)

/-- A step of the background or of the last scenario. -/
def Feature.addStep? (f : Feature) (part : Part) (step : Step) : Option Feature :=
  match part with
  | .background => some { f with background := f.background.map (· ++ [step]) }
  | .scenario => some (f.modifyLastScenario fun s ↦ { s with steps := s.steps ++ [step] })
  | _ => none

/-- Free text, which is kept only before the first background or scenario. -/
def Feature.addText (f : Feature) (part : Part) (line : String) : Feature :=
  if part == .feature && f.scenarios.isEmpty && f.background.isNone then
    { f with description := f.description ++ [line] }
  else f

/-- A line of a feature that has started. -/
def ParserState.readFeatureLine (s : ParserState) (f : Feature) (number : Nat) (line : String) :
    Except FeatureError ParserState :=
  if startsWith line "Background:" then
    .ok { s with feature := some { f with background := some [] }, part := .background, tags := [] }
  else if startsWith line "Rule:" then .ok { s with part := .rule, tags := [] }
  else
    match heading? line with
    | some (name, isOutline) =>
        let scenario : Scenario := { name, tags := s.tags, isOutline }
        .ok { s with
          feature := some { f with scenarios := f.scenarios ++ [scenario] }
          part := .scenario
          tags := [] }
    | none =>
        if startsWith line "Examples:" || startsWith line "Scenarios:" then
          if f.scenarios.isEmpty then .error (.stepOutsideScenario number)
          else
            let examples : Examples := { tags := s.tags }
            .ok { s with
              feature := some (f.modifyLastScenario fun sc ↦
                { sc with examples := sc.examples ++ [examples] })
              part := .examples
              tags := [] }
        else if startsWith line "|" then
          .ok { s with feature := some (f.addTableRow s.part (tableRow line)) }
        else
          match splitStep? line with
          | some (keyword, text) =>
              match f.addStep? s.part { keyword, text } with
              | some next => .ok { s with feature := some next }
              | none => .error (.stepOutsideScenario number)
          | none => .ok { s with feature := some (f.addText s.part line) }

/-- A line outside attached texts. -/
def ParserState.readPlainLine (s : ParserState) (number : Nat) (line : String) :
    Except FeatureError ParserState :=
  if line.isEmpty || startsWith line "#" then .ok s
  else
    match documentDelimiter? line with
    | some delimiter => .ok { s with document := some ⟨number, delimiter, []⟩ }
    | none =>
        if startsWith line "@" then .ok { s with tags := s.tags ++ lineTags line }
        else
          match afterStart? "Feature:" line with
          | some name =>
              .ok { s with
                feature := some { name := trim name, tags := s.tags }
                part := .feature
                tags := [] }
          | none =>
              match s.feature with
              | some f => s.readFeatureLine f number line
              | none =>
                  if (splitStep? line).isSome then .error (.stepOutsideScenario number) else .ok s

def ParserState.readLine (s : ParserState) (number : Nat) (raw : String) :
    Except FeatureError ParserState :=
  match s.document with
  | some d => .ok (s.readDocumentLine d (trim raw))
  | none => s.readPlainLine number (trim raw)

/-- Reads lines that start with line `number`. -/
def readLines : Nat → ParserState → List String → Except FeatureError ParserState
  | _, s, [] => .ok s
  | number, s, line :: rest => do readLines (number + 1) (← s.readLine number line) rest

/-- The feature that a text describes. -/
def parse (text : String) : Except FeatureError Feature := do
  let s ← readLines 1 {} (lines text)
  match s.document, s.feature with
  | some d, _ => throw (.unterminatedDocument d.line)
  | none, some f => return f
  | none, none => throw .missingFeature

end SuiteMigration.Gherkin
