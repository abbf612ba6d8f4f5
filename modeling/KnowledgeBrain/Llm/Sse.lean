import KnowledgeBrain.Foundation.Json
import KnowledgeBrain.Retrieval.Reranking

/-!
# Server-sent events of a chat model

A completion arrives as a body of lines.  One reader takes the whole body, the
other takes the bytes as they come and stops at the event that ends the stream.
-/

namespace KnowledgeBrain
namespace Llm

open Foundation
open Chunker (Text trim strLines isWhitespace)

structure ChatToolCall where
  id : String
  name : String
  arguments : String
deriving DecidableEq

/-- Missing counts stay unknown. -/
structure ChatUsage where
  promptTokens : Option Nat
  completionTokens : Option Nat
  totalTokens : Option Nat
  cachedTokens : Option Nat
  reasoningTokens : Option Nat
deriving DecidableEq

structure ChatTurn where
  content : String
  toolCalls : List ChatToolCall
  finishReason : String
  usage : Option ChatUsage
deriving DecidableEq

namespace ChatTurn

def default : ChatTurn where
  content := ""
  toolCalls := []
  finishReason := ""
  usage := none

end ChatTurn

/-!
# JSON values
-/

/-- `value[key]`, null where there is no such field. -/
def field (key : String) : JsonValue -> JsonValue
  | .object fields => (fields.lookup key).getD .null
  | _ => .null

/-- `value[index]`, null where there is no such item. -/
def item (index : Nat) : JsonValue -> JsonValue
  | .array items => items[index]?.getD .null
  | _ => .null

def asStr : JsonValue -> Option String
  | .text value => some value
  | _ => none

/-- A number is a `u64` if it is written with digits only and fits. -/
def asU64 : JsonValue -> Option Nat
  | .number token => (Retrieval.digitsValue token.toList).filter (· < 2 ^ 64)
  | _ => none

def asArray : JsonValue -> Option (List JsonValue)
  | .array items => some items
  | _ => none

def usage (value : JsonValue) : Option ChatUsage :=
  match value with
  | .object _ => some {
      promptTokens := asU64 (field "prompt_tokens" value)
      completionTokens := asU64 (field "completion_tokens" value)
      totalTokens := asU64 (field "total_tokens" value)
      cachedTokens := asU64 (field "cached_tokens" (field "prompt_tokens_details" value))
      reasoningTokens :=
        asU64 (field "reasoning_tokens" (field "completion_tokens_details" value)) }
  | _ => none

/-!
# Payloads
-/

def looksLikeSse (body : Text) : Bool :=
  (strLines body).any fun line => "data:".toList.isPrefixOf (line.dropWhile isWhitespace)

/-- The data of a line. -/
def dataOf (line : Text) : Option Text :=
  if "data:".toList.isPrefixOf line then
    let data := trim (line.drop 5)
    if data = [] then none else some data
  else none

def sseDataPayloads (body : Text) : List Text :=
  (strLines body).filterMap dataOf

/-- The data that ends a stream. -/
def doneMark : Text :=
  "[DONE]".toList

def truncate (s : Text) (n : Nat) : Text :=
  if s.length ≤ n then s else s.take n ++ ['…']

/-- The turn and its tool calls by their index. -/
structure Collected where
  turn : ChatTurn
  calls : Table Nat ChatToolCall

namespace Collected

def start : Collected where
  turn := ChatTurn.default
  calls := Table.empty

def byIndex (a b : Nat × ChatToolCall) : Ordering :=
  compare a.1 b.1

/-- `turn.tool_calls = calls.into_values().collect()`. -/
def finished (c : Collected) : ChatTurn :=
  { c.turn with toolCalls := (sortBy byIndex c.calls.rows).map Prod.snd }

end Collected

/-- `serde_json::from_str`. -/
abbrev Parse := Text -> Except String JsonValue

def callOf (value : JsonValue) : ChatToolCall where
  id := (asStr (field "id" value)).getD ""
  name := (asStr (field "name" (field "function" value))).getD ""
  arguments := (asStr (field "arguments" (field "function" value))).getD ""

/-- What one item of `delta.tool_calls` adds to its call. -/
def extendCall (value : JsonValue) (call : ChatToolCall) : ChatToolCall where
  id := (asStr (field "id" value)).getD call.id
  name := call.name ++ (asStr (field "name" (field "function" value))).getD ""
  arguments := call.arguments ++ (asStr (field "arguments" (field "function" value))).getD ""

/-- `calls.entry(index).or_default()`. -/
def extendCalls (calls : Table Nat ChatToolCall) (value : JsonValue) : Table Nat ChatToolCall :=
  calls.upsert ((asU64 (field "index" value)).getD 0) (extendCall value ⟨"", "", ""⟩)
    (extendCall value)

/-- `calls.insert(index, call)`. -/
def insertCall (calls : Table Nat ChatToolCall) (entry : JsonValue × Nat) :
    Table Nat ChatToolCall :=
  calls.upsert entry.2 (callOf entry.1) fun _ => callOf entry.1

/-- What a parsed payload changes. -/
def applyValue (c : Collected) (v : JsonValue) : Collected :=
  let choice := item 0 (field "choices" v)
  let delta := field "delta" choice
  let message := field "message" choice
  let added := c.turn.content ++ (asStr (field "content" delta)).getD ""
  { turn :=
      { content := if added = "" then (asStr (field "content" message)).getD "" else added
        toolCalls := c.turn.toolCalls
        finishReason := (asStr (field "finish_reason" choice)).getD c.turn.finishReason
        usage := (usage (field "usage" v)).or c.turn.usage }
    calls :=
      ((asArray (field "tool_calls" message)).getD []).zipIdx.foldl insertCall
        (((asArray (field "tool_calls" delta)).getD []).foldl extendCalls c.calls) }

section Readers

variable (parse : Parse)

def applySseData (c : Collected) (data : Text) : Except String Collected :=
  match parse data with
  | .ok v => .ok (applyValue c v)
  | .error e => .error s!"sse chat json: {e}: {String.ofList (truncate data 180)}"

/-!
# The whole body
-/

/-- The payloads in front of the one that ends the stream. -/
def collectPayloads : List Text -> Collected -> Except String Collected
  | [], c => .ok c
  | data :: rest, c =>
      if data = doneMark then .ok c
      else do
        let c <- applySseData parse c data
        collectPayloads rest c

def unaryTurn (v : JsonValue) : ChatTurn :=
  let choice := item 0 (field "choices" v)
  let message := field "message" choice
  { content := (asStr (field "content" message)).getD ""
    toolCalls := ((asArray (field "tool_calls" message)).getD []).map callOf
    finishReason := (asStr (field "finish_reason" choice)).getD ""
    usage := usage (field "usage" v) }

def collectChatTurn (body : Text) : Except String ChatTurn :=
  if looksLikeSse body then do
    let c <- collectPayloads parse (sseDataPayloads body) Collected.start
    return c.finished
  else
    match parse (trim body) with
    | .ok v => .ok (unaryTurn v)
    | .error e => .error s!"chat json: {e}"

structure CompletionResult where
  content : String
  finishReason : String
  doneSeen : Bool
  transportStatus : String
  usage : Option ChatUsage
  providerRequestId : Option String
deriving DecidableEq

/-- `body.replace("\r\n", "\n")`. -/
def normalized (body : Text) : Text :=
  replaceFrom ['\r', '\n'] ['\n'] 0 body

/-- Cuts behind the first blank line. -/
def cutBlankLine (t : Text) : Option (Text × Text) :=
  (cutAt ['\n', '\n'] t).map fun (before, behind) => (before ++ ['\n', '\n'], behind)

/-- `str::split_inclusive("\n\n")`. -/
def splitInclusive (t : Text) : List Text :=
  (eventsOf cutBlankLine t).1 ++ (if (eventsOf cutBlankLine t).2 = [] then []
    else [(eventsOf cutBlankLine t).2])

def completeTerminal (body : Text) : Bool :=
  (splitInclusive (normalized body)).any fun event =>
    ['\n', '\n'].isSuffixOf event && trim event = "data: [DONE]".toList

/-- Whether the end of the stream was seen, and the last identity in front of it. -/
def scanPayloads : List Text -> Option String -> Except String (Bool × Option String)
  | [], requestId => .ok (false, requestId)
  | data :: rest, requestId =>
      if data = doneMark then .ok (true, requestId)
      else do
        let value <- parse data
        scanPayloads rest ((asStr (field "id" value)).or requestId)

def collectCompletion (body : Text) : Except String CompletionResult := do
  let turn <- collectChatTurn parse body
  let (doneSeen, requestId) <-
    if looksLikeSse body then do
      let (done, requestId) <- scanPayloads parse (sseDataPayloads body) none
      pure (done && completeTerminal body, requestId)
    else do
      let value <- parse body
      pure (true, asStr (field "id" value))
  return {
    content := turn.content
    finishReason := turn.finishReason
    doneSeen := doneSeen
    transportStatus := if doneSeen then "complete" else "interrupted"
    usage := turn.usage
    providerRequestId := requestId }

/-!
# The bytes as they come
-/

def feeds : List UInt8 :=
  [10, 10]

def returnFeeds : List UInt8 :=
  [13, 10, 13, 10]

/-- `buf.windows(n).position(|w| w == pattern)`. -/
def position (pattern buf : List UInt8) : Option Nat :=
  (cutAt pattern buf).map fun found => found.1.length

/-- The position of the last byte of the first event break. -/
def findEventBreak (buf : List UInt8) : Option Nat :=
  match (position feeds buf).map (· + 1), (position returnFeeds buf).map (· + 3) with
  | some a, some b => some (min a b)
  | a, b => a.or b

/-- `pending.drain(..=idx)`. -/
def drainEvent (pending : List UInt8) : Option (List UInt8 × List UInt8) :=
  (findEventBreak pending).map fun idx => (pending.take (idx + 1), pending.drop (idx + 1))

/-- How reading ends before the end of the bytes. -/
abbrev Early := Except String ChatTurn

def takePayload (c : Collected) (data : Text) : Except Early Collected :=
  if data = doneMark then throw (.ok c.finished)
  else
    match applySseData parse c data with
    | .ok c => pure c
    | .error e => throw (.error e)

variable (utf8Error : List UInt8 -> String)

/-- One event; the number counts the complete events. -/
def takeEvent (state : Collected × Nat) (raw : List UInt8) : Except Early (Collected × Nat) :=
  match decodeUtf8 raw with
  | none => throw (.error s!"invalid UTF-8 SSE response: {utf8Error raw}")
  | some text => do
      let c <- (sseDataPayloads text).foldlM (takePayload parse) state.1
      return (c, state.2 + 1)

def missingDone (bytesRead completeEvents : Nat) : String :=
  s!"incomplete SSE stream: missing [DONE]; bytes_read={bytesRead}; " ++
    s!"complete_events={completeEvents}"

/-- The loop over the reads; a read of no bytes is the end. -/
def readLoop : List (Except String (List UInt8)) -> Nat -> (Collected × Nat) × List UInt8 ->
    Except String ChatTurn
  | [], bytesRead, state => .error (missingDone bytesRead state.1.2)
  | .error error :: _, bytesRead, ((_, completeEvents), _) => .error
      s!"sse read: {error}; bytes_read={bytesRead}; complete_events={completeEvents}"
  | .ok [] :: _, bytesRead, state => .error (missingDone bytesRead state.1.2)
  | .ok (byte :: bytes) :: reads, bytesRead, state =>
      match feedPiece drainEvent (takeEvent parse utf8Error) state (byte :: bytes) with
      | .ok state => readLoop reads (bytesRead + (byte :: bytes).length) state
      | .error result => result

def consumeSseRead (reads : List (Except String (List UInt8))) : Except String ChatTurn :=
  readLoop parse utf8Error reads 0 ((Collected.start, 0), [])

end Readers

end Llm
end KnowledgeBrain
