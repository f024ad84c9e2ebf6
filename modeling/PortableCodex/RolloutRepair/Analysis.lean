import Mathlib.Data.List.DropRight
import PortableCodex.Contracts.SessionStorage
import PortableCodex.Js.JsonPrefix
import PortableCodex.Js.TextDecoder

/-!
What the rollout tail repair makes of the bytes of a rollout file.

A rollout is a sequence of JSON texts, each ended by a line feed; the first one is the session
metadata of the pinned client. `analyzeBytes` keeps the complete lines and decides about what
stands after the last line feed: a text that parses gets its line feed, anything else goes.
`none` is the rejection `rollout_content_invalid`.
-/

namespace PortableCodex.RolloutRepair

open Js ProviderState Contracts

/-- `MAX_FILE_BYTES` -/
def maxFileBytes : Nat := 64 * 1024 * 1024

/-- `PINNED_ROLLOUT_CLI_VERSION` -/
def pinnedRolloutCliVersion : JsString := js "0.144.1"

def lineFeed : UInt8 := 0x0A

def byteOrderMark : Bytes := [0xEF, 0xBB, 0xBF]

/-- `jsonValue`: `none` is `{ ok: false }`. -/
def jsonValue (bytes : Bytes) : Option JsValue := do
  ensure (bytes.take 3 ≠ byteOrderMark)
  let text ← decodeFatal bytes
  ensure (text.length ≠ 0)
  parseJson text

structure SessionMeta where
  sessionId : Uuid
  threadId : Uuid
deriving DecidableEq

/-- The string a property holds. -/
def textMember (members : List (JsString × JsValue)) (key : JsString) : Option JsString :=
  match getMember members key with
  | some (.string text) => some text
  | _ => none

/-- `typeof value === "string" && UUID_PATTERN.test(value)` -/
def uuidMember (members : List (JsString × JsValue)) (key : JsString) : Option Uuid := do
  uuid (← getMember members key)

def assertSessionMeta (value : JsValue) : Option SessionMeta := do
  let .object members := value | none
  ensure (textMember members (js "type") = some (js "session_meta"))
  let some (.object payload) := getMember members (js "payload") | none
  ensure (textMember payload (js "cli_version") = some pinnedRolloutCliVersion)
  let id ← uuidMember payload (js "id")
  let sessionId ← uuidMember payload (js "session_id")
  some { sessionId, threadId := id }

inductive Action where
  | unchanged
  | appendLf
  | truncatePartialTail
deriving DecidableEq

structure Analysis where
  action : Action
  after : Bytes
  sessionMeta : SessionMeta
  removedBytes : Nat
deriving DecidableEq

/-- The number of bytes up to the last line feed, `bytes.lastIndexOf(0x0a) + 1`. -/
def lineEnd (bytes : Bytes) : Nat := (bytes.rdropWhile fun b => b ≠ lineFeed).length

/-- The loop over the complete lines; `line` is what has been read since the last line feed,
`bytes.subarray(start, index)`. -/
def readLines (line : Bytes) : Bytes → Option (List JsValue)
  | [] => some []
  | b :: rest =>
      if b = lineFeed then do
        let value ← jsonValue line
        let values ← readLines [] rest
        some (value :: values)
      else readLines (line ++ [b]) rest

/-- What `analyzeBytes` checks last, whatever it decided about the tail. -/
def conclude (action : Action) (after : Bytes) (completeLines : List JsValue) (removedBytes : Nat) :
    Option Analysis := do
  let first :: _ := completeLines | none
  ensure (after.length ≤ maxFileBytes)
  let sessionMeta ← assertSessionMeta first
  some { action, after, sessionMeta, removedBytes }

def analyzeBytes (bytes : Bytes) : Option Analysis := do
  let terminated := bytes.getLast? = some lineFeed
  let completeEnd := if terminated then bytes.length else lineEnd bytes
  let completeLines ← readLines [] (bytes.take completeEnd)
  if terminated then conclude .unchanged bytes completeLines 0
  else
    let tail := bytes.drop (lineEnd bytes)
    match jsonValue tail with
    | some value => conclude .appendLf (bytes ++ [lineFeed]) (completeLines ++ [value]) 0
    | none => do
        ensure (completeLines.length > 0)
        ensure (tail.length > 0)
        conclude .truncatePartialTail (bytes.take (lineEnd bytes)) completeLines tail.length

end PortableCodex.RolloutRepair
