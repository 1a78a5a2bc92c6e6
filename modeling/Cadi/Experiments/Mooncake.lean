import Cadi.Experiments.Trace
import Cadi.Library.Numbering
import Cadi.Library.Tries

namespace Cadi.Mooncake
open Library Fields Trace
set_option autoImplicit true

section Manifest

def mooncakeSourceRevision : String := "3cca71daccf2a7afb8fe3f0295358f70e3a69fdb"

def mooncakeDocRevision : String := "1d0e4c7587b57b78a1997be370b349b79828c5dd"

def mooncakeSourceUri : String :=
  "https://raw.githubusercontent.com/kvcache-ai/Mooncake/" ++ mooncakeSourceRevision ++
    "/FAST25-release/traces/conversation_trace.jsonl"

def mooncakeSourceSha256 : String := "b8cbb061a85206d729d91cdc2981f43c9e0d99209dce588d3af5f7934408b9df"

def mooncakeNormalizationVersion : String := "cadi.c5.2.mooncake-fast25.v1"

def mooncakeSteps : List String :=
  ["preserve zero-based JSONL source ordinal and derive stable row identities",
    "convert source timestamp milliseconds to arrival_time_s by division by 1000",
    "preserve input_length and output_length as source-observed token counts",
    "interpret hash_ids as 512-token reusable prefix blocks per " ++
      "Mooncake FAST25 trace documentation revision " ++ mooncakeDocRevision,
    "derive longest reusable prior prefix from exact prior hash-id sequence paths",
    "map each shared 512-token hash block prefix to bounded prefix_tokens"]

def mooncakeOrigins : List (TraceField × TraceFieldOrigin) :=
  [(.arrivalTimeS, .sourceObserved), (.inputTokens, .sourceObserved), (.outputTokens, .sourceObserved),
    (.prefixGroupId, .traceDerived), (.prefixTokens, .traceDerived)]

def mooncakeManifest : Except PyError TraceSourceManifest :=
  TraceSourceManifest.new (.str "mooncake-fast25-conversation") (.str "Mooncake FAST'25 conversation trace")
    (.str mooncakeSourceUri) (.str mooncakeSourceRevision) (.str "Apache-2.0") (.str mooncakeSourceSha256)
    (.str mooncakeNormalizationVersion) (mooncakeSteps.map .str) mooncakeOrigins

end Manifest

section Rows

structure MooncakeSourceRow where
  timestampMs : Nat
  inputTokens : Nat
  outputTokens : Nat
  hashIds : List Nat

def mooncakePrefixBlockTokens : Nat := 512

/-- The loop of `longest_seen_prefix`, with the node it stands at and the blocks it has counted. -/
def longestSeenPrefix : Trie Nat → Nat → List Nat → Nat
  | _, shared, [] => shared
  | node, shared, hashId :: hashIds =>
    match node.child hashId with
    | none => shared
    | some child => longestSeenPrefix child (shared + 1) hashIds

theorem thousand_representable {n : Nat} (h : n + 10 ≤ 2098) : Representable (1000 * 2 ^ n) := by
  apply representable_mul_pow (by decide)
  have hten : 1000 * 2 ^ n < 2 ^ 10 * 2 ^ n := Nat.mul_lt_mul_of_pos_right (by decide) (Nat.two_pow_pos n)
  rw [← Nat.pow_add, Nat.add_comm 10 n] at hten
  exact hten.trans_le (Nat.pow_le_pow_right Nat.two_pos h)

/-- The float `1000.0`. -/
def thousand : Time := ⟨false, 1000 * 2 ^ 1074, thousand_representable (by decide), fun h => nomatch h⟩

/-- The value, or the error of its absence. -/
def orRaise (o : Option α) (e : PyError) : Except PyError α := o.elim (.error e) .ok

/-- `timestamp_ms / 1000.0`: the integer is converted to a float first. -/
def arrivalOf (timestampMs : Nat) : Except PyError Binary64 := do
  let t ← orRaise (Time.ofNat? timestampMs) (.overflowError "int too large to convert to float")
  return t.toBinary64.div thousand.toBinary64

def groupOf (hashIds : List Nat) (sharedBlocks : Nat) : Except PyError (Doc Binary64) :=
  if sharedBlocks = 0 then .ok .null
  else
    match hashIds[sharedBlocks - 1]? with
    | some hashId => .ok (.str ("mooncake-hash:" ++ toString hashId))
    | none => .error (.runtimeError "tuple index out of range")

def deriveRecord (ordinal : Nat) (row : MooncakeSourceRow) (sharedBlocks : Nat) :
    Except PyError NormalizedTraceRecord := do
  let prefixTokens := min row.inputTokens (mooncakePrefixBlockTokens * sharedBlocks)
  let prefixGroupId ← groupOf row.hashIds sharedBlocks
  let arrivalTimeS ← arrivalOf row.timestampMs
  NormalizedTraceRecord.new (.str ("mooncake-fast25:" ++ zeroPadded 5 ordinal))
    (.str ("jsonl-line:" ++ toString (ordinal + 1))) (.int ordinal) (.float arrivalTimeS)
    (.int row.inputTokens) (.int row.outputTokens) prefixGroupId (.int prefixTokens)

def deriveLoop : Trie Nat → Nat → List MooncakeSourceRow → Except PyError (List NormalizedTraceRecord)
  | _, _, [] => return []
  | trie, ordinal, row :: rows => do
    let record ← deriveRecord ordinal row (longestSeenPrefix trie 0 row.hashIds)
    return record :: (← deriveLoop (trie.add row.hashIds) (ordinal + 1) rows)

def deriveMooncakeRecords (rows : List MooncakeSourceRow) :
    Except PyError (List NormalizedTraceRecord) := do
  raiseIf (rows.isEmpty = true) (.valueError "Mooncake rows must not be empty")
  deriveLoop .empty 0 rows

end Rows

end Cadi.Mooncake
