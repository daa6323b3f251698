import NomadDev.ToolPaths
import NomadDev.Foundation.Transition
import NomadDev.Foundation.Utf8
import Mathlib.Data.Int.Notation

namespace NomadDev.Commands

open Tools

variable {α : Type}

def maxChunkSize : ℕ := 16 * 1024

inductive ChunkStream
  | stdout | stderr | exit
  | other (name : String)
  deriving DecidableEq

inductive ExecErr
  | deadlineExceeded
  | canceled
  | badRequest (msg : String)
  | oom (msg : String)
  | imagePull (msg : String)
  | other (msg : String)
  deriving DecidableEq

structure ExecChunk where
  stream : ChunkStream
  data : List UInt8
  exitCode : ℤ
  err : Option ExecErr
  deriving DecidableEq

def classifyExit (c : ExecChunk) : ℤ × Refusal :=
  match c.err with
  | none => (c.exitCode, ⟨"", ""⟩)
  | some .deadlineExceeded => (-1, ⟨"sandbox_timeout", "exec timed out"⟩)
  | some .canceled => (-1, ⟨"sandbox_canceled", "client disconnected"⟩)
  | some (.badRequest msg) => (-1, ⟨"sandbox_bad_request", msg⟩)
  | some (.oom msg) => (-1, ⟨"sandbox_oom", msg⟩)
  | some (.imagePull msg) => (-1, ⟨"sandbox_image_pull", msg⟩)
  | some (.other msg) => (-1, ⟨"sandbox_internal", msg⟩)

inductive Payload
  | approvalRequest (tool reason : String)
  | chunk (stream : ChunkStream) (seq : ℕ) (data : List UInt8)
  | result (exitCode : ℤ) (error : Refusal)
  deriving DecidableEq

def Payload.isResult : Payload → Bool
  | .result _ _ => true
  | _ => false

inductive Envelope
  | commandRequest (intentID : String) (id : ℕ) (tool : String)
  | reply (correlationID : ℕ) (payload : Payload)

def slicesAux (n : ℕ) : ℕ → List UInt8 → List (List UInt8)
  | 0, _ => []
  | fuel + 1, data => if data = [] then [] else data.take n :: slicesAux n fuel (data.drop n)

def slices (data : List UInt8) : List (List UInt8) := slicesAux maxChunkSize data.length data

def emitChunk (c : ExecChunk) (seq : ℕ) : List Payload :=
  ((slices c.data).zipIdx seq).map fun piece => .chunk c.stream piece.2 (Foundation.Utf8.toValid piece.1)

structure Loop where
  (stdoutSeq stderrSeq : ℕ)
  (stdoutBuf stderrBuf : List UInt8)
  exitCode : ℤ
  exitErr : Refusal
  received : List ExecChunk

def Loop.start : Loop := ⟨0, 0, [], [], 0, ⟨"", ""⟩, []⟩

def Loop.onChunk (l : Loop) (c : ExecChunk) : Loop × List Payload :=
  let l := { l with received := l.received ++ [c] }
  match c.stream with
  | .stdout =>
    ({ l with stdoutBuf := l.stdoutBuf ++ c.data, stdoutSeq := l.stdoutSeq + (slices c.data).length },
      emitChunk c l.stdoutSeq)
  | .stderr =>
    ({ l with stderrBuf := l.stderrBuf ++ c.data, stderrSeq := l.stderrSeq + (slices c.data).length },
      emitChunk c l.stderrSeq)
  | .exit =>
    let (code, err) := classifyExit c
    ({ l with exitCode := code, exitErr := err }, [.result code err])
  | .other _ => (l, [])

inductive Path
  | llm | worker

inductive Output
  | none
  | errorMessage (msg : String)
  | streamed (exitCode : ℤ) (stdout stderr : List UInt8)
  deriving DecidableEq

structure ToolResult where
  (callID tool : String)
  output : Output
  error : String

inductive Phase (α : Type)
  | awaiting (next : Answer → Outcome α)
  | dispatching
  | streaming (l : Loop)
  | finished (res : ToolResult) (stream : Option (List ExecChunk))
  | handedOver (target : Target)

structure Handler (α : Type) where
  path : Path
  (callID tool : String)
  phase : Phase α

def Handler.refusal (h : Handler α) (r : Refusal) : ToolResult :=
  match h.path with
  | .llm => ⟨h.callID, h.tool, .none, r.code⟩
  | .worker => ⟨h.callID, h.tool, .errorMessage r.message, r.code⟩

def Handler.toolResult (h : Handler α) (l : Loop) : ToolResult :=
  ⟨h.callID, h.tool, .streamed l.exitCode l.stdoutBuf l.stderrBuf, l.exitErr.code⟩

structure State (α : Type) where
  nextID : ℕ
  handlers : ℕ → Option (Handler α)
  log : List Envelope

def init : State α := ⟨0, fun _ => none, []⟩

def State.reply (s : State α) (id : ℕ) (ps : List Payload) : State α := { s with log := s.log ++ ps.map (.reply id) }

variable (s : State α)

def State.enter (id : ℕ) (h : Handler α) (phase : Phase α) : State α :=
  { s with handlers := Function.update s.handlers id (some { h with phase := phase }) }

def State.refuse (id : ℕ) (h : Handler α) (r : Refusal) : State α :=
  (s.reply id [.result (-1) r]).enter id h (.finished (h.refusal r) none)

-- A call another handler takes over (daemons, language server, worker pool) reads no dispatcher channel.
def State.settle (id : ℕ) (h : Handler α) : Outcome α → State α
  | .refused r => s.refuse id h r
  | .dispatched .dispatcher _ _ => s.enter id h .dispatching
  | .dispatched target _ _ => s.enter id h (.handedOver target)

def State.mint (intentID tool : String) : State α :=
  { s with nextID := s.nextID + 1, log := s.log ++ [.commandRequest intentID s.nextID tool] }

def State.openCall (path : Path) (intentID : String) (call : ToolCall α) (gate : Gate α) : State α :=
  let h := ⟨path, call.id, call.tool, .dispatching⟩
  match gate with
  | .done o => (s.mint intentID call.tool).settle s.nextID h o
  | .ask reason next =>
    ((s.mint intentID call.tool).reply s.nextID [.approvalRequest call.tool reason]).enter s.nextID h (.awaiting next)

def dispatchRefusal (badRequest : Bool) (err : String) : Refusal :=
  ⟨if badRequest then "sandbox_bad_request" else "sandbox_internal", err⟩

inductive Action (α : Type)
  | runToolCall (srv : Server α) (mw : Middleware α) (client : Client) (mode : Mode) (intentID : String)
      (call : ToolCall α)
  | runWorkerToolCall (srv : Server α) (mw : Middleware α) (task : SubTask) (intentID : String) (call : ToolCall α)
  | answer (id : ℕ) (a : Answer)
  | dispatch (id : ℕ)
  | dispatchFails (id : ℕ) (badRequest : Bool) (err : String)
  | chunk (id : ℕ) (c : ExecChunk)
  | close (id : ℕ)

def stepPhase (id : ℕ) (h : Handler α) : Action α → Phase α → Option (State α)
  | .answer _ a, .awaiting next => some (s.settle id h (next a))
  | .dispatch _, .dispatching => some (s.enter id h (.streaming .start))
  | .dispatchFails _ badRequest err, .dispatching => some (s.refuse id h (dispatchRefusal badRequest err))
  | .chunk _ c, .streaming l => some ((s.reply id (l.onChunk c).2).enter id h (.streaming (l.onChunk c).1))
  | .close _, .streaming l => some (s.enter id h (.finished (h.toolResult l) (some l.received)))
  | _, _ => none

def State.onHandler (id : ℕ) (a : Action α) : Option (State α) :=
  (s.handlers id).bind fun h => stepPhase s id h a h.phase

def step (a : Action α) : Option (State α) :=
  match a with
  | .runToolCall srv mw client mode intentID call =>
    some (s.openCall .llm intentID call (runToolCall srv mw client mode call))
  | .runWorkerToolCall srv mw task intentID call =>
    some (s.openCall .worker intentID call (runWorkerToolCall srv mw task call))
  | .answer id _ | .dispatch id | .dispatchFails id _ _ | .chunk id _ | .close id => s.onHandler id a

def replies (log : List Envelope) (id : ℕ) : List Payload :=
  log.filterMap fun e => match e with
    | .reply corr p => if corr = id then some p else none
    | .commandRequest _ _ _ => none

structure Answered (log : List Envelope) (id : ℕ) : Prop where
  requested : ∃ before intentID tool after,
    log = before ++ .commandRequest intentID id tool :: after ∧ replies before id = []
  result : ∃ rs last, replies log id = rs ++ [last] ∧ last.isResult = true ∧ ∀ p ∈ rs, p.isResult = false

def ToolResult.success (res : ToolResult) : Prop :=
  res.error = "" ∧ ∃ stdout stderr, res.output = .streamed 0 stdout stderr

def ReportedSuccess (log : List Envelope) (id : ℕ) (res : ToolResult) : Prop :=
  res.success ∨ ∃ msg, Payload.result 0 ⟨"", msg⟩ ∈ replies log id

def hasExit (cs : List ExecChunk) : Prop := ∃ c ∈ cs, c.stream = .exit

end NomadDev.Commands
