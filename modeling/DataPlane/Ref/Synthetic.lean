import DataPlane.Ref.Backend
import DataPlane.Ref.Exchange

/-!
# The synthetic backend

`stream_synthetic` answers a prompt with its own words, as many as are allowed,
and puts them out one at a time. The pause between two tokens is time like any
other.
-/

namespace DataPlane.Ref

open DataPlane DataPlane.Lib

/-- The engines of a system whose backend is one of the two. A request that
cannot be read is an error; `parseMessage` is the text of it. -/
structure StreamingConfig where
  streams : StreamsConfig
  reclaimIdleMs : Nat
  serde : SerdeJson
  parseMessage : List UInt8 → String
  sha256 : String → String
  limits : QuotaLimits

/-- The system around the backends. -/
def StreamingConfig.toSys (cfg : StreamingConfig) : SysConfig where
  engine :=
    { streams := cfg.streams
      reclaimIdleMs := cfg.reclaimIdleMs
      parseError := fun bytes =>
        match readRuntimeRequest cfg.serde bytes with
        | some _ => none
        | none => some (cfg.parseMessage bytes) }
  sha256 := cfg.sha256
  limits := cfg.limits

/-- `words`. -/
def syntheticWords (request : EngineRuntimeRequest) : List String :=
  ((splitWhitespace ("Generated response for: " ++ extractPrompt request)).map
    String.ofList).take request.maxTokens.toNat

/-- What the loop puts out. -/
def syntheticTokens (request : EngineRuntimeRequest) : List TokenChunk :=
  (syntheticWords request).mapIdx fun index word => ⟨word ++ " ", index + 1⟩

/-- What it returns. -/
def syntheticUsage (request : EngineRuntimeRequest) : GenerationUsage where
  promptTokens := estimateTokens (extractPrompt request)
  generatedTokens := (syntheticWords request).length
  finishReason := "stop"

/-- The request of the loop, if the job's can be read, and its `index`. -/
structure SyntheticLoop where
  request : Option EngineRuntimeRequest
  index : Nat

/-- One turn of the loop, or the return behind it. -/
def streamSynthetic (serde : SerdeJson) : Backend SyntheticLoop Unit where
  start job := ⟨readRuntimeRequest serde job.requestJson, 0⟩
  next loop _ :=
    match loop.request with
    | none => none
    | some request =>
        match (syntheticTokens request)[loop.index]? with
        | some chunk =>
            some ({ loop with index := loop.index + 1 }, some (.item chunk))
        | none => some (loop, some (.done (.ok (syntheticUsage request))))

/-- The tokens for a job; none if its request cannot be read. -/
def jobTokens (serde : SerdeJson) (job : GenerationJob) : List TokenChunk :=
  match readRuntimeRequest serde job.requestJson with
  | some request => syntheticTokens request
  | none => []

end DataPlane.Ref
