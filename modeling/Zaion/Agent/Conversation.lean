import Zaion.Agent.Fsm
import Zaion.Lib.Trace
import Zaion.Sample

/-! What the machine keeps of a tool conversation over whole runs: the log, the round limit,
and how far tool messages answer calls. -/
namespace Zaion.Agent

open Lib

/-- One change of state, and what it does to the other fields. -/
def AgentFsm.move (fsm : AgentFsm) (added : List ChatMessage) (count tokens : Nat) (target : AgentState)
    (reason : String) (now : Nat) : AgentFsm where
  state := target
  messages := fsm.messages ++ added
  config := fsm.config
  transitions := fsm.transitions ++ [⟨fsm.state, target, reason, now⟩]
  toolRoundCount := count
  sessionTokens := tokens

/-- The results an event puts before `on_tool_results`. -/
def FsmEvent.handed (host : Host) : FsmEvent → Option (List ToolResult)
  | .toolResults results => some results
  | .toolResultsWithBudget results config disk =>
    match (budgetToolResults host results config disk).2 with
    | .ok budgeted => some budgeted
    | .error _ => none
  | _ => none

/-- All a step can do. -/
inductive Moves (host : Host) (run : FsmRun) (now : Nat) : FsmEvent → FsmRun → Prop
  | stays (event : FsmEvent) : Moves host run now event run
  | hears (message : ChatMessage) (reason : String) (idle : run.fsm.state = .idle) :
      Moves host run now (.userMessage message)
        ⟨run.fsm.move [message] 0 run.fsm.sessionTokens .thinking reason now, 0⟩
  | asks (event : FsmEvent) (text : String) (tokens : Nat) (reason : String) (thinking : run.fsm.state = .thinking) :
      Moves host run now event
        ⟨run.fsm.move [assistantMessage text] run.fsm.toolRoundCount tokens .toolUse reason now, run.rounds⟩
  | replies (event : FsmEvent) (text : String) (tokens : Nat) (reason : String) :
      Moves host run now event
        ⟨run.fsm.move [assistantMessage text] run.fsm.toolRoundCount tokens .responding reason now, run.rounds⟩
  | collects (event : FsmEvent) (results : List ToolResult) (reason : String)
      (handed : event.handed host = some results) (asked : run.fsm.state = .toolUse)
      (below : run.fsm.toolRoundCount < run.fsm.config.maxToolRounds) :
      Moves host run now event ⟨run.fsm.move (results.map toolMessage) (run.fsm.toolRoundCount + 1)
        run.fsm.sessionTokens .thinking reason now, run.rounds + 1⟩
  | rests (event : FsmEvent) (count tokens : Nat) (target : AgentState) (reason : String)
      (calm : target ≠ .thinking ∧ target ≠ .toolUse) :
      Moves host run now event ⟨run.fsm.move [] count tokens target reason now, run.rounds⟩

theorem move_nil (fsm : AgentFsm) (count tokens : Nat) (target : AgentState) (reason : String) (now : Nat) :
    { fsm with toolRoundCount := count, sessionTokens := tokens }.transitionTo target reason now =
      fsm.move [] count tokens target reason now := by
  simp [AgentFsm.transitionTo,AgentFsm.move]

section

variable {host : Host} {run : FsmRun} {now : Nat}

theorem onToolResults_moves (event : FsmEvent) {results : List ToolResult} (handed : event.handed host = some results) :
    Moves host run now event ⟨(run.fsm.onToolResults results now).1,
      if accepted (run.fsm.onToolResults results now).2 then run.rounds + 1 else run.rounds⟩ := by
  unfold AgentFsm.onToolResults
  by_cases asked : run.fsm.state = .toolUse
  · rw [if_neg (by simp [asked])]
    by_cases below : run.fsm.toolRoundCount < run.fsm.config.maxToolRounds
    · simp only [if_neg (show ¬ run.fsm.config.maxToolRounds < run.fsm.toolRoundCount + 1 by omega)]
      exact .collects event results _ handed asked below
    · simp only [if_pos (show run.fsm.config.maxToolRounds < run.fsm.toolRoundCount + 1 by omega)]
      have resting : Moves host run now event _ := .rests event (run.fsm.toolRoundCount + 1)
        run.fsm.sessionTokens .idle "max tool rounds exceeded" (by decide)
      rw [← move_nil] at resting
      exact resting
  · rw [if_pos asked]
    exact .stays event

/-- A budgeted turn is refused as a whole, or hands its results on. -/
theorem onToolResultsWithBudget_cases (host : Host) (now : Nat) (fsm : AgentFsm) (results : List ToolResult) (config : ToolResultBudgetConfig)
    (disk : Disk) :
    ((fsm.onToolResultsWithBudget host results config disk now).1 = fsm ∧
      accepted (fsm.onToolResultsWithBudget host results config disk now).2.2 = false ∧
      (fsm.state = .toolUse → (FsmEvent.toolResultsWithBudget results config disk).handed host = none)) ∨
    ∃ budgeted, (FsmEvent.toolResultsWithBudget results config disk).handed host = some budgeted ∧
      (fsm.onToolResultsWithBudget host results config disk now).1 = (fsm.onToolResults budgeted now).1 ∧
      accepted (fsm.onToolResultsWithBudget host results config disk now).2.2 =
        accepted (fsm.onToolResults budgeted now).2 := by
  unfold AgentFsm.onToolResultsWithBudget
  split
  · rename_i refused
    exact .inl ⟨rfl, rfl, fun asked => absurd asked refused⟩
  · split
    · rename_i disk' e failed
      exact .inl ⟨rfl, rfl, fun _ => by simp [FsmEvent.handed,failed]⟩
    · rename_i disk' budgeted spilled
      refine .inr ⟨budgeted, by simp [FsmEvent.handed,spilled], ?_⟩
      split
      · rename_i collected
        simp [collected,accepted]
      · rename_i collected
        simp [collected,accepted]

theorem onLlmResponse_moves (event : FsmEvent) (outcome : LlmOutcome) :
    Moves host run now event ⟨(run.fsm.onLlmResponse outcome now).1, run.rounds⟩ := by
  have resting (reason : String) : Moves host run now event ⟨AgentFsm.transitionTo { run.fsm with
      sessionTokens := addU64 run.fsm.sessionTokens outcome.tokensUsed } .idle reason now, run.rounds⟩ := by
    have rests : Moves host run now event _ := .rests event run.fsm.toolRoundCount
      (addU64 run.fsm.sessionTokens outcome.tokensUsed) .idle reason (by decide)
    rw [← move_nil] at rests
    exact rests
  unfold AgentFsm.onLlmResponse
  by_cases thinking : run.fsm.state = .thinking
  · rw [if_neg (by simp [thinking])]
    simp only
    split
    · exact resting _
    · cases outcome.finishReason with
      | toolUse => exact .asks event outcome.text _ _ thinking
      | stop => exact .replies event outcome.text _ _
      | maxTokens => exact resting _
  · rw [if_pos thinking]
    exact .stays event

theorem step_moves (event : FsmEvent) : Moves host run now event (run.step host now event) := by
  have resting (count : Nat) (target : AgentState) (reason : String) (calm : target ≠ .thinking ∧ target ≠ .toolUse) :
      Moves host run now event ⟨AgentFsm.transitionTo { run.fsm with toolRoundCount := count } target reason now,
        run.rounds⟩ := by
    have rests : Moves host run now event _ := .rests event count run.fsm.sessionTokens target reason calm
    rw [← move_nil] at rests
    exact rests
  cases event with
  | userMessage message =>
    simp only [FsmRun.step,AgentFsm.onUserMessage]
    by_cases idle : run.fsm.state = .idle
    · rw [if_neg (by simp [idle])]
      exact .hears message _ idle
    · rw [if_pos idle]
      exact .stays _
  | llmResponse outcome => exact onLlmResponse_moves _ outcome
  | toolResults results => exact onToolResults_moves _ rfl
  | toolResultsWithBudget results config disk =>
    simp only [FsmRun.step]
    rcases onToolResultsWithBudget_cases host now run.fsm results config disk with
      ⟨same, refused, _⟩ | ⟨budgeted, handed, same, answer⟩
    · simp only [same,refused,Bool.false_eq_true,if_false]
      exact .stays _
    · simp only [same,answer]
      exact onToolResults_moves _ handed
  | responseDelivered =>
    simp only [FsmRun.step,AgentFsm.onResponseDelivered]
    split
    · exact .stays _
    · split
      · exact resting run.fsm.toolRoundCount _ _ (by decide)
      · exact resting run.fsm.toolRoundCount _ _ (by decide)
  | reflectionComplete =>
    simp only [FsmRun.step,AgentFsm.onReflectionComplete]
    split
    · exact .stays _
    · exact resting run.fsm.toolRoundCount _ _ (by decide)
  | reset => exact resting 0 _ _ (by decide)

/-- Results handed over in the asking state, below the limit, enter the conversation. -/
theorem step_collects {event : FsmEvent} {results : List ToolResult} (handed : event.handed host = some results)
    (asked : run.fsm.state = .toolUse) (below : run.fsm.toolRoundCount < run.fsm.config.maxToolRounds) :
    (run.step host now event).fsm.messages = run.fsm.messages ++ results.map toolMessage := by
  have collected : (run.fsm.onToolResults results now).1.messages =
      run.fsm.messages ++ results.map toolMessage := by
    simp only [AgentFsm.onToolResults,asked,ne_eq,not_true_eq_false,if_false,
      if_neg (show ¬ run.fsm.config.maxToolRounds < run.fsm.toolRoundCount + 1 by omega)]
    rfl
  cases event with
  | toolResults given =>
    cases handed
    exact collected
  | toolResultsWithBudget given config disk =>
    simp only [FsmRun.step]
    rcases onToolResultsWithBudget_cases host now run.fsm given config disk with
      ⟨_, _, none⟩ | ⟨budgeted, handed', same, _⟩
    · rw [none asked] at handed
      cases handed
    · obtain rfl := Option.some.inj (handed.symm.trans handed')
      rw [same]
      exact collected
  | _ => cases handed

end

/-! What holds in every run. -/

/-- The log leads from one state to the other, each entry leaving where the last arrived. -/
def Connected : AgentState → List StateTransition → AgentState → Prop
  | start, [], final => start = final
  | start, transition :: log, final => transition.source = start ∧ Connected transition.target log final

theorem Connected.snoc {start middle final : AgentState} {log : List StateTransition} (path : Connected start log middle)
    (reason : String) (now : Nat) : Connected start (log ++ [⟨middle, final, reason, now⟩]) final := by
  induction log generalizing start with
  | nil =>
    cases path
    exact ⟨rfl, rfl⟩
  | cons transition log ih => exact ⟨path.1, ih path.2⟩

structure Sound (config : FsmConfig) (run : FsmRun) : Prop where
  configured : run.fsm.config = config
  path : Connected .idle run.fsm.transitions run.fsm.state
  rounds : run.rounds ≤ config.maxToolRounds
  counted : run.fsm.state = .thinking ∨ run.fsm.state = .toolUse → run.rounds = run.fsm.toolRoundCount
  asked : run.fsm.state = .toolUse → ∃ before text, run.fsm.messages = before ++ [assistantMessage text]

theorem Sound.moves {host : Host} {config : FsmConfig} {run run' : FsmRun} {now : Nat} {event : FsmEvent}
    (sound : Sound config run) (moves : Moves host run now event run') : Sound config run' := by
  cases moves with
  | stays => exact sound
  | hears message reason idle =>
    exact ⟨sound.configured, sound.path.snoc reason now, Nat.zero_le _, fun _ => rfl, by simp [AgentFsm.move]⟩
  | asks _ text tokens reason thinking =>
    exact ⟨sound.configured, sound.path.snoc reason now, sound.rounds, fun _ => sound.counted (.inl thinking),
      fun _ => ⟨_, _, rfl⟩⟩
  | replies _ text tokens reason =>
    exact ⟨sound.configured, sound.path.snoc reason now, sound.rounds, by simp [AgentFsm.move], by simp [AgentFsm.move]⟩
  | collects _ results reason handed asked below =>
    have count := sound.counted (.inr asked)
    rw [sound.configured] at below
    refine ⟨sound.configured, sound.path.snoc reason now, ?_, fun _ => congrArg (· + 1) count, by simp [AgentFsm.move]⟩
    simp only
    omega
  | rests _ count tokens target reason calm =>
    exact ⟨sound.configured, sound.path.snoc reason now, sound.rounds, by simp [AgentFsm.move,calm],
      by simp [AgentFsm.move,calm]⟩

theorem after_snoc (host : Host) (config : FsmConfig) (events : List (Nat × FsmEvent)) (event : Nat × FsmEvent) :
    FsmRun.after host config (events ++ [event]) = (FsmRun.after host config events).step host event.1 event.2 := by
  simp [FsmRun.after]

theorem sound_after (host : Host) (config : FsmConfig) (events : List (Nat × FsmEvent)) :
    Sound config (FsmRun.after host config events) := by
  induction events using List.reverseRecOn with
  | nil => exact ⟨rfl, rfl, Nat.zero_le _, fun _ => rfl, by simp [FsmRun.after,AgentFsm.new]⟩
  | append_singleton events event ih =>
    rw [after_snoc]
    exact ih.moves (step_moves event.2)

/-! Tool messages and the calls they answer. -/

def closestAssistant (before : List ChatMessage) : Option ChatMessage :=
  (before.filter (fun message => decide (message.role = "assistant"))).getLast?

/-- A tool message names a call of the closest assistant message before it. -/
def ToolRefers (before : List ChatMessage) (message : ChatMessage) : Prop :=
  message.role = "tool" → ∃ assistant call, closestAssistant before = some assistant ∧
    call ∈ assistant.toolCalls ∧ message.toolCallId = some call.id

def ChatMessage.Asks (message : ChatMessage) : Prop := message.role = "assistant" ∧ message.toolCalls ≠ []

/-- Each call of the last assistant message that asks for tools has one tool message after it. -/
def Answered (messages : List ChatMessage) : Prop :=
  ∀ before assistant after, messages = before ++ assistant :: after → assistant.Asks →
    (∀ later ∈ after, ¬ later.Asks) → ∀ call ∈ assistant.toolCalls,
      (after.filter (fun m => decide (m.role = "tool" ∧ m.toolCallId = some call.id))).length = 1

structure WellFormed (config : FsmConfig) (run : FsmRun) : Prop where
  refers : Justified ToolRefers run.fsm.messages
  answered : run.fsm.state = .thinking → Answered run.fsm.messages
  path : Connected .idle run.fsm.transitions run.fsm.state
  rounds : run.rounds ≤ config.maxToolRounds

/-- The event brings no tool result into the conversation: it has none, or spilling them
fails. -/
def FsmEvent.Silent (host : Host) : FsmEvent → Prop
  | .toolResults results => results = []
  | .toolResultsWithBudget results config disk =>
    results = [] ∨ accepted (budgetToolResults host results config disk).2 = false
  | _ => True

section

variable {host : Host} {config : FsmConfig}

theorem spillCandidates_length {budget : ToolResultBudgetConfig} {target : HostToolResultStorageTarget}
    {candidates : List (Nat × Nat)} {total : Nat} {disk : Disk} {messages : List ToolResultMessage} :
    (spillCandidates host budget target candidates total disk messages).2.1.length = messages.length := by
  induction candidates generalizing total disk messages with
  | nil => rfl
  | cons candidate candidates ih =>
    simp only [spillCandidates]
    split
    · rfl
    · split
      · rfl
      · split
        · rfl
        · rw [ih,List.length_set]

theorem storeToolResults_length {budget : ToolResultBudgetConfig} {results : List ToolResult} {disk disk' : Disk}
    {messages : List ToolResultMessage} (stored : storeToolResults host budget results disk = (disk', .ok messages)) :
    messages.length = results.length := by
  induction results generalizing disk disk' messages with
  | nil =>
    cases stored
    rfl
  | cons result results ih =>
    simp only [storeToolResults] at stored
    split at stored
    · cases stored
    · split at stored
      · cases stored
      · rename_i rest
        cases stored
        simp [ih rest]

theorem budgetToolResults_length {budget : ToolResultBudgetConfig} {results budgeted : List ToolResult} {disk : Disk}
    (done : (budgetToolResults host results budget disk).2 = .ok budgeted) : budgeted.length = results.length := by
  unfold budgetToolResults at done
  split at done
  · cases done
  · rename_i disk' messages stored
    split at done
    · cases done
    · rename_i disk'' messages' enforced
      cases done
      have same : messages'.length = messages.length := by
        have := congrArg (fun outcome => outcome.2.1.length) enforced
        simp only [enforceTurnBudget,enforceTurnBudgetWithTarget] at this
        split at this
        · exact this.symm
        · rw [spillCandidates_length] at this
          exact this.symm
      simp [same,storeToolResults_length stored]

theorem silent_iff {event : FsmEvent} :
    event.Silent host ↔ ∀ results, event.handed host = some results → results = [] := by
  cases event with
  | toolResults results => simp [FsmEvent.Silent,FsmEvent.handed]
  | toolResultsWithBudget results budget disk =>
    simp only [FsmEvent.Silent,FsmEvent.handed]
    cases done : (budgetToolResults host results budget disk).2 with
    | error e => simp [accepted]
    | ok budgeted =>
      have length := budgetToolResults_length done
      have same : results = [] ↔ budgeted = [] := by
        rw [← List.length_eq_zero_iff,← List.length_eq_zero_iff,length]
      simp [accepted,same]
  | _ => simp [FsmEvent.Silent,FsmEvent.handed]

/-- No tool message and no assistant message with calls. -/
def Quiet (messages : List ChatMessage) : Prop := ∀ message ∈ messages, message.role ≠ "tool" ∧ ¬ message.Asks

theorem Quiet.append {messages added : List ChatMessage} (quiet : Quiet messages) (more : Quiet added) :
    Quiet (messages ++ added) := by
  intro message member
  rcases List.mem_append.mp member with old | new
  · exact quiet message old
  · exact more message new

theorem quiet_nil : Quiet [] := by simp [Quiet]

theorem quiet_assistant (text : String) : Quiet [assistantMessage text] := by
  simp [Quiet,assistantMessage,ChatMessage.Asks]

/-- What a caller passes to `on_user_message`: a message in neither of the other roles. -/
def FsmEvent.Spoken (event : FsmEvent) : Prop :=
  ∀ message, event = .userMessage message → message.role ≠ "assistant" ∧ message.role ≠ "tool"

theorem Quiet.moves {run run' : FsmRun} {now : Nat} {event : FsmEvent} (quiet : Quiet run.fsm.messages)
    (moves : Moves host run now event run') (spoken : event.Spoken)
    (silent : run.fsm.state = .toolUse → run.fsm.toolRoundCount < run.fsm.config.maxToolRounds → event.Silent host) :
    Quiet run'.fsm.messages := by
  cases moves with
  | stays => exact quiet
  | hears message reason idle =>
    obtain ⟨speaker, other⟩ := spoken message rfl
    refine quiet.append ?_
    simp [Quiet,ChatMessage.Asks,speaker,other]
  | asks _ text tokens reason thinking => exact quiet.append (quiet_assistant text)
  | replies _ text tokens reason => exact quiet.append (quiet_assistant text)
  | collects _ results reason handed asked below =>
    have none := silent_iff.mp (silent asked below) results handed
    rw [none]
    exact quiet.append quiet_nil
  | rests _ count tokens target reason calm => exact quiet.append quiet_nil

theorem Quiet.refers {messages : List ChatMessage} (quiet : Quiet messages) : Justified ToolRefers messages := by
  intro before message after split tool
  exact absurd tool (quiet message (by simp [split])).1

theorem Quiet.answered {messages : List ChatMessage} (quiet : Quiet messages) : Answered messages := by
  intro before assistant after split asks
  exact absurd asks (quiet assistant (by simp [split])).2

/-- A result that enters refers to nothing: the closest assistant message carries no call. -/
theorem collected_unreferred {messages before : List ChatMessage} {text : String} {results : List ToolResult}
    (asked : messages = before ++ [assistantMessage text]) (some : results ≠ []) :
    ¬ Justified ToolRefers (messages ++ results.map toolMessage) := by
  intro refers
  obtain ⟨result, rest, rfl⟩ := List.exists_cons_of_ne_nil some
  obtain ⟨assistant, call, closest, member, _⟩ := refers messages (toolMessage result) (rest.map toolMessage) rfl rfl
  have bare : closestAssistant messages = .some (assistantMessage text) := by
    simp [closestAssistant,asked,assistantMessage]
  rw [bare] at closest
  cases closest
  cases member

theorem quiet_after {events : List (Nat × FsmEvent)} (spoken : ∀ event ∈ events, event.2.Spoken)
    (silent : Justified (fun before event => (FsmRun.after host config before).fsm.state = .toolUse →
      (FsmRun.after host config before).fsm.toolRoundCount < config.maxToolRounds → event.2.Silent host) events) :
    Quiet (FsmRun.after host config events).fsm.messages := by
  induction events using List.reverseRecOn with
  | nil => exact quiet_nil
  | append_singleton events event ih =>
    have earlier := ih (fun other member => spoken other (List.mem_append_left _ member)) silent.left
    rw [after_snoc]
    refine earlier.moves (step_moves event.2) (spoken event (by simp)) ?_
    rw [(sound_after host config events).configured]
    exact silent events event [] rfl

/-- A run keeps a well-formed tool conversation exactly when no tool result ever enters it:
whenever results are handed over in the asking state below the round limit, there are none. -/
theorem well_formed_iff_silent {events : List (Nat × FsmEvent)} (spoken : ∀ event ∈ events, event.2.Spoken) :
    (∀ before after, events = before ++ after → WellFormed config (FsmRun.after host config before)) ↔
      Justified (fun before event => (FsmRun.after host config before).fsm.state = .toolUse →
        (FsmRun.after host config before).fsm.toolRoundCount < config.maxToolRounds → event.2.Silent host) events := by
  constructor
  · intro formed before event after split asked below
    rw [silent_iff]
    intro results handed
    by_contra some
    have sound := sound_after host config before
    obtain ⟨start, text, last⟩ := sound.asked asked
    have refers := (formed (before ++ [event]) after (by simp [split])).refers
    rw [after_snoc,step_collects handed asked (by rw [sound.configured]; exact below)] at refers
    exact collected_unreferred last some refers
  · rintro silent before after rfl
    have sound := sound_after host config before
    have quiet := quiet_after (fun event member => spoken event (List.mem_append_left _ member)) silent.left
    exact ⟨quiet.refers, fun _ => quiet.answered, sound.path, sound.rounds⟩

end

def sampleUserMessage : ChatMessage := ⟨"user", "read it", [], none, none, none⟩

/-- The model answers without a tool. -/
theorem well_formed_plain_answer :
    WellFormed .default (FsmRun.after sampleHost .default
      [(1, .userMessage sampleUserMessage), (2, .llmResponse ⟨.stop, [], "Done.", 20⟩)]) := by
  have spoken : ∀ event ∈ [(1, FsmEvent.userMessage sampleUserMessage), (2, .llmResponse ⟨.stop, [], "Done.", 20⟩)],
      event.2.Spoken := by
    rintro event member message same
    simp only [List.mem_cons,List.not_mem_nil,or_false] at member
    rcases member with rfl | rfl
    · cases same
      decide
    · cases same
  refine (well_formed_iff_silent spoken).mpr ?_ _ [] (by simp)
  rintro before event after split - -
  have member : event ∈ [(1, FsmEvent.userMessage sampleUserMessage), (2, .llmResponse ⟨.stop, [], "Done.", 20⟩)] := by
    simp [split]
  simp only [List.mem_cons,List.not_mem_nil,or_false] at member
  rcases member with rfl | rfl <;> trivial

/-- One call, one result for it: the tool message answers a call no message carries. -/
theorem tool_round_unmatched : ¬ WellFormed .default (FsmRun.after sampleHost .default
    [(1, .userMessage sampleUserMessage),
      (2, .llmResponse ⟨.toolUse, [⟨"tc_1", "read_file", "null"⟩], "", 10⟩),
      (3, .toolResults [⟨"tc_1", "read_file", "text", true⟩])]) := by
  intro formed
  have messages : (FsmRun.after sampleHost .default [(1, .userMessage sampleUserMessage),
      (2, .llmResponse ⟨.toolUse, [⟨"tc_1", "read_file", "null"⟩], "", 10⟩),
      (3, .toolResults [⟨"tc_1", "read_file", "text", true⟩])]).fsm.messages =
        ([sampleUserMessage] ++ [assistantMessage ""]) ++ [⟨"tc_1", "read_file", "text", true⟩].map toolMessage := by
    decide
  have refers := formed.refers
  rw [messages] at refers
  exact collected_unreferred rfl (List.cons_ne_nil _ _) refers

end Zaion.Agent
