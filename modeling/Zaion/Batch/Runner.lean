import Mathlib.Data.List.Nodup
import Zaion.Batch.Checkpoint
import Zaion.Lib.Steps

/-! Batches: workers execute the pending prompts, the runner records each result in the
checkpoint as it arrives and writes the trajectories of the run at its end. A run may be
stopped by a crash or by a write that fails, and the next one resumes from the two files. -/
namespace Zaion.Batch

open Zaion.Lib

structure ShareGptMessage where
  role : String
  content : String
  deriving DecidableEq

structure Trajectory where
  prompt : String
  messages : List ShareGptMessage
  toolsUsed : List String
  totalTokens : Nat
  success : Bool
  deriving DecidableEq

structure BatchExecutionResult where
  assistantMessage : String
  toolsUsed : List String
  totalTokens : Nat
  success : Bool

/-- What `process_prompt_with_executor` makes of the executor's answer. -/
def processPrompt (prompt : String) : Except String BatchExecutionResult → Except String Trajectory
  | .error e => .error e
  | .ok r => .ok {
      prompt := prompt
      messages := [⟨"user", prompt⟩, ⟨"assistant", r.assistantMessage⟩]
      toolsUsed := r.toolsUsed
      totalTokens := r.totalTokens
      success := r.success }

/-- A line of the output file: one from before the batch, or the trajectory of a prompt. -/
inductive Line where
  | foreign (text : String)
  | trajectory (i : Nat) (t : Trajectory)
  deriving DecidableEq

/-- The prompts in the queue, with the executor, in the channel, and the trajectories kept. -/
structure Working where
  workers : Nat
  resume : Bool
  queue : List Nat
  inflight : List Nat
  channel : List (Nat × Except String Trajectory)
  kept : List (Nat × Trajectory)

structure Writing where
  remaining : List (Nat × Trajectory)
  returned : List Trajectory

inductive Run where
  | idle
  | working (w : Working)
  | writing (w : Writing)

/-- The files, the run, how the last run ended, the executor calls of runs that returned an
error, and the prompts whose call succeeded. -/
structure State where
  checkpoint : Option BatchCheckpoint
  output : Option (List Line)
  run : Run
  result : Option (Except Unit (List Trajectory))
  abandoned : List Nat
  succeeded : List Nat

inductive Act where
  | begin (numWorkers : Nat) (now : String) (ok : Bool)
  | pop
  | finish (i : Nat) (outcome : Except String BatchExecutionResult)
  | receive (now : String) (loaded ok : Bool)
  | openOutput (ok : Bool)
  | writeLine (ok : Bool)
  | returnOk
  | crash
  | late (i : Nat) (outcome : Except String BatchExecutionResult)

def succeeds : Except String BatchExecutionResult → Bool
  | .ok r => r.success
  | .error _ => false

/-- The run returns an error. The calls in flight go on, and each worker that is free may take
one more prompt before it finds the channel closed; a single worker is the runner itself. -/
def State.fail (s : State) (w : Working) : State :=
  { s with
    run := .idle
    result := some (.error ())
    abandoned := s.abandoned ++
      if w.workers = 1 then [] else w.inflight ++ w.queue.take (w.workers - w.inflight.length) }

section

variable (prompts : List String)

def promptAt (i : Nat) : String := prompts.getD i ""

def pending (completed : List Nat) : List Nat := (List.range prompts.length).filter (fun i => i ∉ completed)

def step (s : State) : Act → Option State
  | .begin numWorkers now ok => match s.run with
    | .idle => match loadCheckpoint s.checkpoint now ok with
      | (none, file) => some { s with checkpoint := file, result := some (.error ()) }
      | (some cp, file) =>
        let queue := pending prompts cp.completed
        some { s with
          checkpoint := file
          result := none
          run := .working {
            workers := min (max numWorkers 1) queue.length
            resume := !cp.completed.isEmpty && s.output.isSome
            queue := queue
            inflight := []
            channel := []
            kept := [] } }
    | _ => none
  | .pop => match s.run with
    | .working w => match w.queue with
      | i :: rest =>
        -- the single worker takes the next prompt after it recorded the last one
        if w.inflight.length < w.workers ∧ (w.workers = 1 → w.channel = []) then
          some { s with run := .working { w with queue := rest, inflight := w.inflight ++ [i] } }
        else none
      | [] => none
    | _ => none
  | .finish i outcome => match s.run with
    | .working w =>
      if i ∈ w.inflight then
        some { s with
          run := .working { w with
            inflight := w.inflight.erase i
            channel := w.channel ++ [(i, processPrompt (promptAt prompts i) outcome)] }
          succeeded := if succeeds outcome then s.succeeded ++ [i] else s.succeeded }
      else none
    | _ => none
  | .receive now loaded ok => match s.run with
    | .working w => match w.channel with
      | (i, result) :: rest =>
        let (success, kept) := match result with
          | .ok t => (t.success, if t.success then w.kept ++ [(i, t)] else w.kept)
          | .error _ => (false, w.kept)
        match updateCheckpoint s.checkpoint i success now loaded ok with
        | (true, file) => some { s with checkpoint := file, run := .working { w with channel := rest, kept := kept } }
        | (false, file) => some (({ s with checkpoint := file } : State).fail w)
      | [] => none
    | _ => none
  | .openOutput ok => match s.run with
    | .working w =>
      if w.queue = [] ∧ w.inflight = [] ∧ w.channel = [] then
        if ok then
          let sorted := w.kept.mergeSort (fun a b => decide (a.1 ≤ b.1))
          some { s with
            output := some (if w.resume then s.output.getD [] else [])
            run := .writing ⟨sorted, sorted.map Prod.snd⟩ }
        else some { s with run := .idle, result := some (.error ()) }
      else none
    | _ => none
  | .writeLine ok => match s.run with
    | .writing w => match w.remaining with
      | (i, t) :: rest =>
        if ok then
          some { s with output := some (s.output.getD [] ++ [.trajectory i t]), run := .writing { w with remaining := rest } }
        else some { s with run := .idle, result := some (.error ()) }
      | [] => none
    | _ => none
  | .returnOk => match s.run with
    | .writing w => if w.remaining = [] then some { s with run := .idle, result := some (.ok w.returned) } else none
    | _ => none
  | .crash => match s.run with
    | .idle => some { s with abandoned := [] }
    | _ => some { s with run := .idle, result := none, abandoned := [] }
  | .late i outcome =>
    if i ∈ s.abandoned then
      some { s with
        abandoned := s.abandoned.erase i
        succeeded := if succeeds outcome then s.succeeded ++ [i] else s.succeeded }
    else none

/-- No checkpoint yet, and any output file. -/
def start (output : Option (List Line)) : State := ⟨none, output, .idle, none, [], []⟩

/-- The line of each completed prompt is there once and no other line; the two lists of the
checkpoint are disjoint, without duplicates, and cover the prompts. -/
structure Complete (s : State) : Prop where
  lines : ∃ lines : List (Nat × Trajectory), s.output = some (lines.map (fun l => .trajectory l.1 l.2)) ∧
    (lines.map Prod.fst).Perm (completedOf s.checkpoint) ∧
    ∀ l ∈ lines, l.2.prompt = promptAt prompts l.1 ∧ l.2.success = true
  nodup : (completedOf s.checkpoint).Nodup ∧ (failedOf s.checkpoint).Nodup
  disjoint : ∀ i ∈ failedOf s.checkpoint, i ∉ completedOf s.checkpoint
  cover : ∀ i, i ∈ completedOf s.checkpoint ∨ i ∈ failedOf s.checkpoint ↔ i < prompts.length

/-- After a run that returned `Ok`. -/
def Finished (s : State) : Prop :=
  ∀ trajectories, s.run = .idle → s.result = some (.ok trajectories) → Complete prompts s

end

/-- The prompt given to the executor is not one whose call succeeded before. -/
def NotAgain (s : State) : Act → Prop
  | .pop => ∀ w i rest, s.run = .working w → w.queue = i :: rest → i ∉ s.succeeded
  | _ => True

/-- No executor call of the run succeeded yet, or its last line is written. -/
def Run.settled : Run → Prop
  | .idle => True
  | .working w => w.kept = [] ∧ ∀ i t, (i, .ok t) ∈ w.channel → t.success = false
  | .writing w => w.remaining = []

def Act.stops : Act → Bool
  | .receive _ _ ok => !ok
  | .openOutput ok => !ok
  | .writeLine ok => !ok
  | .crash => true
  | _ => false

/-- A run is stopped only while it is settled, and no call of a stopped run succeeds later. -/
def Careful (s : State) (a : Act) : Prop :=
  (a.stops = true → s.run.settled) ∧ ∀ i outcome, a = .late i outcome → succeeds outcome = false

end Zaion.Batch
