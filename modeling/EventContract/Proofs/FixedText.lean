import EventContract.Consumption.Module
import EventContract.Proofs.TextLines

/-! # The fixed text of a consumption module

Every consumption module carries the types of its connection, the connection logic and the client in
the same words. The text is read for its identifiers: what stands outside of comments and literals.
One of them only ends the way the names of payload types do.
-/

namespace EventContract.Consumption

/-! ## The connection logic as it is written -/

def restingStateLines : List String :=
  [
    "const IDLE: ConnectionState = \x7b kind: \"idle\" \x7d;",
    "const CONNECTED: ConnectionState = \x7b kind: \"connected\" \x7d;",
    "const DISCONNECTED: ConnectionState = \x7b kind: \"disconnected\" \x7d;"]

def retryDelayLines : List String :=
  [
    "/** Delay before retry number `attempt` (starting at 1). */",
    "export function retryDelayMs(policy: BackoffPolicy, attempt: number): number \x7b",
    "  return policy.baseDelayMs * 2 ** (attempt - 1);",
    "\x7d",
    ""]

def retryLines : List String :=
  [
    "function retry(attempt: number, policy: BackoffPolicy): Transition \x7b",
    "  if (attempt > policy.maxAttempts) \x7b",
    "    return \x7b state: DISCONNECTED, effects: [\x7b kind: \"closeStream\" \x7d, \x7b kind: \"gaveUp\" \x7d] \x7d;",
    "  \x7d",
    "  return \x7b",
    "    state: \x7b kind: \"reconnecting\", attempt \x7d,",
    "    effects: [",
    "      \x7b kind: \"closeStream\" \x7d,",
    "      \x7b kind: \"scheduleRetry\", attempt, delayMs: retryDelayMs(policy, attempt) \x7d,",
    "    ],",
    "  \x7d;",
    "\x7d",
    ""]

def transitionLines : List String :=
  [
    "/** Next state and the effects to perform, for one signal. */",
    "export function transition(",
    "  state: ConnectionState,",
    "  signal: ConnectionSignal,",
    "  policy: BackoffPolicy,",
    "): Transition \x7b",
    "  if (signal === \"disconnect\") \x7b",
    "    if (state.kind === \"disconnected\") \x7b",
    "      return \x7b state, effects: [] \x7d;",
    "    \x7d",
    "    if (state.kind === \"reconnecting\") \x7b",
    "      return \x7b state: DISCONNECTED, effects: [\x7b kind: \"cancelRetry\" \x7d, \x7b kind: \"closeStream\" \x7d] \x7d;",
    "    \x7d",
    "    return \x7b state: DISCONNECTED, effects: [\x7b kind: \"closeStream\" \x7d] \x7d;",
    "  \x7d",
    "  if (signal === \"connect\") \x7b",
    "    if (state.kind === \"idle\" || state.kind === \"disconnected\") \x7b",
    "      return \x7b state: IDLE, effects: [\x7b kind: \"openStream\" \x7d] \x7d;",
    "    \x7d",
    "    return \x7b state, effects: [] \x7d;",
    "  \x7d",
    "  if (signal === \"opened\") \x7b",
    "    // A stream that finished opening after teardown.",
    "    if (state.kind === \"disconnected\") \x7b",
    "      return \x7b state, effects: [\x7b kind: \"closeStream\" \x7d] \x7d;",
    "    \x7d",
    "    return \x7b state: CONNECTED, effects: [] \x7d;",
    "  \x7d",
    "  if (signal === \"streamLost\") \x7b",
    "    if (state.kind === \"idle\" || state.kind === \"connected\") \x7b",
    "      return retry(1, policy);",
    "    \x7d",
    "    if (state.kind === \"reconnecting\") \x7b",
    "      return retry(state.attempt + 1, policy);",
    "    \x7d",
    "    return \x7b state, effects: [] \x7d;",
    "  \x7d",
    "  if (state.kind === \"reconnecting\") \x7b",
    "    return \x7b state, effects: [\x7b kind: \"openStream\" \x7d] \x7d;",
    "  \x7d",
    "  return \x7b state, effects: [] \x7d;",
    "\x7d",
    ""]

theorem map_line_restingStates : restingStates.map Constant.line = restingStateLines := by
  decide +kernel

theorem lines_retryDelayFunction : retryDelayFunction.lines = retryDelayLines := by
  decide +kernel

theorem lines_retryFunction : retryFunction.lines = retryLines := by
  decide +kernel

theorem lines_transitionFunction : transitionFunction.lines = transitionLines := by
  decide +kernel

theorem lines_connectionScript : connectionScript.lines =
    restingStateLines ++ [""] ++ (retryDelayLines ++ (retryLines ++ transitionLines)) := by
  simp [Script.lines, connectionScript, map_line_restingStates, lines_retryDelayFunction,
    lines_retryFunction, lines_transitionFunction]

/-! ## Reading identifiers -/

/-- Where in a script a character stands. -/
inductive Place where
  | code
  /-- Behind a slash, which may open a comment. -/
  | slash
  | lineComment
  | blockComment
  /-- In a block comment behind a star, which may close it. -/
  | star
  /-- In a literal, with the mark that closes it. -/
  | literal (mark : Char)
  /-- In a literal behind a backslash. -/
  | escape (mark : Char)
  /-- In a template behind a dollar sign, which may open a substitution. -/
  | dollar
  deriving DecidableEq

/-- What is known of a script at the place up to which it is read. -/
structure Reader where
  place : Place
  /-- The number of braces open in each substitution of a template, the innermost first. -/
  braces : List Nat
  /-- The characters of the word that is being read, the last one first. -/
  word : List Char

namespace Reader

def start : Reader := ⟨.code, [], []⟩

def isWordChar (c : Char) : Bool := c == '$' || Name.isIdentifierChar c

/-- The word read so far, unless there is none or it is a number. -/
def identifier (reader : Reader) : List (List Char) :=
  match reader.word.reverse with
  | [] => []
  | c :: rest => if c.isDigit then [] else [c :: rest]

/-- Reads a character of code. A closing brace goes back to the template if it is the one that
closes a substitution. -/
def nextInCode (reader : Reader) (c : Char) : Reader :=
  if isWordChar c then ⟨.code, reader.braces, c :: reader.word⟩
  else if c = '/' then ⟨.slash, reader.braces, []⟩
  else if c = '"' ∨ c = '\'' ∨ c = '`' then ⟨.literal c, reader.braces, []⟩
  else
    match c, reader.braces with
    | '{', n :: outer => ⟨.code, (n + 1) :: outer, []⟩
    | '}', (n + 1) :: outer => ⟨.code, n :: outer, []⟩
    | '}', 0 :: outer => ⟨.literal '`', outer, []⟩
    | _, braces => ⟨.code, braces, []⟩

def next (reader : Reader) (c : Char) : Reader :=
  match reader.place with
  | .code => reader.nextInCode c
  | .slash =>
    if c = '/' then { reader with place := .lineComment }
    else if c = '*' then { reader with place := .blockComment }
    else reader.nextInCode c
  | .lineComment => if c = '\n' then { reader with place := .code } else reader
  | .blockComment => if c = '*' then { reader with place := .star } else reader
  | .star =>
    if c = '/' then { reader with place := .code }
    else if c = '*' then reader
    else { reader with place := .blockComment }
  | .literal mark =>
    if c = mark then { reader with place := .code }
    else if c = '\\' then { reader with place := .escape mark }
    else if c = '$' ∧ mark = '`' then { reader with place := .dollar }
    else reader
  | .escape mark => { reader with place := .literal mark }
  | .dollar =>
    if c = '{' then ⟨.code, 0 :: reader.braces, []⟩
    else if c = '`' then { reader with place := .code }
    else if c = '\\' then { reader with place := .escape '`' }
    else if c = '$' then reader
    else { reader with place := .literal '`' }

/-- The identifier that ends in front of a character. -/
def ended (reader : Reader) (c : Char) : List (List Char) :=
  if reader.place = .code ∧ ¬ isWordChar c then reader.identifier else []

/-- The identifiers of a script in the order in which they stand. -/
def identifiers (reader : Reader) : List Char → List (List Char)
  | [] => reader.identifier
  | c :: rest => reader.ended c ++ (reader.next c).identifiers rest

end Reader

/-- The identifiers of a script, words of the language and names of properties among them. Regular
expressions are not known to it. -/
def identifiers (script : String) : List String :=
  (Reader.start.identifiers script.toList).map String.ofList

example : identifiers "f(`a $\x7bb + \"c\"\x7d d`); /* e */ g.h2 // i" = ["f", "b", "g", "h2"] := by
  decide +kernel

/-! ## The text that does not depend on a schema -/

/-- The lines that are the same in every module. -/
def fixedLines : List String := connectionTypes ++ connectionScript.lines ++ clientText

theorem fixedLines_subset (schema : Schema) (options : Options) (source : String) :
    fixedLines ⊆ moduleLines schema options source := by
  intro line hline
  simp only [fixedLines, moduleLines, List.mem_append] at hline ⊢
  tauto

/-! ## Which of its identifiers are named like payload types -/

/-- The ending that every payload type has. -/
def namesPayload (word : List Char) : Bool :=
  "Event".toList.isSuffixOf word

theorem toList_unlines_map_ofList (css : List (List Char)) :
    (Text.unlines (css.map String.ofList)).toList = css.flatMap (· ++ ['\n']) := by
  induction css with
  | nil => rfl
  | cons cs css ih =>
      rw [List.map_cons, Text.toList_unlines_cons, ih, String.toList_ofList, List.flatMap_cons,
        List.append_assoc]
      rfl

variable {ls : List String} {cs : List Char} {css : List (List Char)}

theorem map_ofList_nil : ([] : List String) = ([] : List (List Char)).map String.ofList := rfl

theorem map_ofList_cons (h : ls = css.map String.ofList) :
    String.ofList cs :: ls = (cs :: css).map String.ofList := by
  rw [h, List.map_cons]

theorem filter_identifiers_of_eq_map {found : List (List Char)} (h : ls = css.map String.ofList)
    (hfound : (Reader.start.identifiers (css.flatMap (· ++ ['\n']))).filter namesPayload = found) :
    (Reader.start.identifiers (Text.unlines ls).toList).filter namesPayload = found := by
  rw [h, toList_unlines_map_ofList, hfound]

theorem filter_identifiers_fixedLines :
    (Reader.start.identifiers (Text.unlines fixedLines).toList).filter namesPayload =
      ["MessageEvent".toList] := by
  rw [fixedLines, lines_connectionScript]
  -- Each line is matched with `String.ofList`, which hands its characters over to the kernel;
  -- taking a line apart there is slow.
  apply filter_identifiers_of_eq_map
  · repeat apply map_ofList_cons
    exact map_ofList_nil
  · decide +kernel

theorem mem_identifiers_fixedLines_iff {name : String} (h : namesPayload name.toList = true) :
    name ∈ identifiers (Text.unlines fixedLines) ↔ name = "MessageEvent" := by
  have hmem : name ∈ identifiers (Text.unlines fixedLines) ↔
      name.toList ∈ (Reader.start.identifiers (Text.unlines fixedLines).toList).filter
        namesPayload := by
    rw [identifiers, List.mem_filter, and_iff_left h, List.mem_map]
    constructor
    · rintro ⟨word, hword, rfl⟩
      rwa [String.toList_ofList]
    · exact fun hword => ⟨name.toList, hword, String.ofList_toList⟩
  rw [hmem, filter_identifiers_fixedLines, List.mem_singleton, String.toList_inj]

end EventContract.Consumption
