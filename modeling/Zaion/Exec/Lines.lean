import Zaion.Exec.Rpc
import Zaion.Lib.Utf8

/-! How the bytes of a connection become lines. The read timeout of the bridge is there for
polling; a timeout inside a line is a read error of the line iterator, which gives up the part of
the line it had read. -/
namespace Zaion.Exec

open Lib

/-- What one read of the stream gives. -/
inductive Read where
  | data (bytes : List UInt8)
  | timedOut

/-- The bytes one at a time, and the timeouts between them. -/
inductive Arrival where
  | byte (value : UInt8)
  | timedOut
  deriving DecidableEq

def Read.arrivals : Read → List Arrival
  | .data bytes => bytes.map .byte
  | .timedOut => [.timedOut]

def newline : UInt8 := 10

/-- The bytes of a line without its end. -/
def lineBytes (bytes : List UInt8) (ended : Bool) : List UInt8 :=
  if ended = true ∧ bytes.getLast? = some 13 then bytes.dropLast else bytes

def lineEvent (bytes : List UInt8) (ended : Bool) : Event :=
  match decodeUtf8 (lineBytes bytes ended) with
  | some text => .line text none
  | none => .failed "stream did not contain valid UTF-8"

/-- `BufRead::lines`, with the part of a line read so far. -/
def bufLines (pending : List UInt8) : List Arrival → List Event
  | [] => if pending = [] then [] else [lineEvent pending false]
  | .timedOut :: rest => .timedOut false :: bufLines [] rest
  | .byte b :: rest =>
    if b = newline then lineEvent pending true :: bufLines [] rest else bufLines (pending ++ [b]) rest

/-- The lines a connection reads, while no shutdown is asked for. -/
def linesOf (reads : List Read) : List Event := bufLines [] (reads.flatMap Read.arrivals)

/-- The same bytes in one piece. -/
def inOnePiece (reads : List Read) : List Read :=
  reads.filter (fun read => match read with
    | .data _ => true
    | .timedOut => false)

/-- However the bytes arrive, a connection does the same as when they arrive in one piece. -/
def ArrivalIrrelevant (reads : List Read) : Prop :=
  ∀ (W : Type) (b : Bridge W) (dispatch : Tool W) (s : Served W),
    (b.handleConnection dispatch s (linesOf reads)).1 = (b.handleConnection dispatch s (linesOf (inOnePiece reads))).1

/-- A line as it was written: the part that was given up and the rest. -/
structure Cut where
  lost : List UInt8
  rest : List UInt8
  ended : Bool

def Cut.delivered (c : Cut) : Event := lineEvent c.rest c.ended
def Cut.whole (c : Cut) : Event := lineEvent (c.lost ++ c.rest) c.ended

/-- Where the timeouts fall in the lines. -/
def cutsOf (lost pending : List UInt8) : List Arrival → List Cut
  | [] => [⟨lost, pending, false⟩]
  | .timedOut :: rest => cutsOf (lost ++ pending) [] rest
  | .byte b :: rest =>
    if b = newline then ⟨lost, pending, true⟩ :: cutsOf [] [] rest else cutsOf lost (pending ++ [b]) rest

def Event.isText : Event → Bool
  | .line _ _ => true
  | _ => false

def Event.blank : Event → Bool
  | .line text _ => decide (trim text = "")
  | _ => false

/-- No timeout inside a line, or only in lines that are blank: there the rest is blank too, or the
timeout fell inside a character and nothing but blank lines follow. -/
def Harmless : List Cut → Prop
  | [] => True
  | c :: more => (c.lost = [] ∧ Harmless more) ∨ (c.whole.blank = true ∧ c.delivered.isText = true ∧ Harmless more) ∨
    (c.whole.blank = true ∧ c.delivered.isText = false ∧ ∀ d ∈ more, d.whole.blank = true)

def cuts (reads : List Read) : List Cut := cutsOf [] [] (reads.flatMap Read.arrivals)

variable {W : Type} {b : Bridge W} {dispatch : Tool W} {s : Served W}

theorem handle_blank {event : Event} (blank : event.blank = true) (rest : List Event) :
    b.handleConnection dispatch s (event :: rest) = b.handleConnection dispatch s rest := by
  cases event with
  | line text writeError => rw [Bridge.handleConnection,if_pos (of_decide_eq_true blank)]
  | _ => cases blank

theorem handle_blanks {events : List Event} (blank : ∀ event ∈ events, event.blank = true) :
    b.handleConnection dispatch s events = (s, .ok ()) := by
  induction events with
  | nil => rfl
  | cons event rest ih =>
    rw [handle_blank (blank event List.mem_cons_self),ih (fun e member => blank e (List.mem_cons_of_mem _ member))]

/-- The first event aside, connections that go on alike end alike. -/
theorem handle_cons_congr {first second : List Event}
    (alike : ∀ s : Served W, (b.handleConnection dispatch s first).1 = (b.handleConnection dispatch s second).1)
    (event : Event) (s : Served W) :
    (b.handleConnection dispatch s (event :: first)).1 = (b.handleConnection dispatch s (event :: second)).1 := by
  cases event with
  | timedOut shutdown => cases shutdown <;> simp [Bridge.handleConnection,alike]
  | closed => rfl
  | failed e => rfl
  | line text writeError =>
    unfold Bridge.handleConnection
    split
    · exact alike s
    · split
      · rfl
      · cases writeError with
        | some e => rfl
        | none => exact alike _

theorem lineEvent_text {bytes : List UInt8} {ended : Bool} (isText : (lineEvent bytes ended).isText = true) :
    ∃ text, lineEvent bytes ended = .line text none := by
  unfold lineEvent at isText ⊢
  split at isText
  · exact ⟨_, rfl⟩
  · cases isText

theorem lineEvent_failed {bytes : List UInt8} {ended : Bool} (broken : (lineEvent bytes ended).isText = false) :
    ∃ e, lineEvent bytes ended = .failed e := by
  unfold lineEvent at broken ⊢
  split at broken
  · cases broken
  · exact ⟨_, rfl⟩

theorem lineEvent_nil_blank (ended : Bool) : (lineEvent [] ended).blank = true := by
  cases ended <;> decide

/-- What is read is what is left of the lines. -/
theorem handle_bufLines (lost pending : List UInt8) (arrivals : List Arrival) (s : Served W) :
    (b.handleConnection dispatch s (bufLines pending arrivals)).1 =
      (b.handleConnection dispatch s ((cutsOf lost pending arrivals).map Cut.delivered)).1 := by
  induction arrivals generalizing lost pending s with
  | nil =>
    unfold bufLines cutsOf
    split
    · rename_i empty
      subst empty
      rw [List.map_singleton,Cut.delivered,handle_blank (lineEvent_nil_blank false)]
    · rfl
  | cons arrival rest ih =>
    cases arrival with
    | timedOut =>
      rw [bufLines,cutsOf,Bridge.handleConnection]
      exact ih (lost ++ pending) [] s
    | byte value =>
      unfold bufLines cutsOf
      split
      · exact handle_cons_congr (ih [] []) _ s
      · exact ih lost (pending ++ [value]) s

/-- In one piece, the lines are whole. -/
theorem handle_inOnePiece (lost pending : List UInt8) (arrivals : List Arrival) (s : Served W) :
    (b.handleConnection dispatch s (bufLines (lost ++ pending) (arrivals.filter (· ≠ .timedOut)))).1 =
      (b.handleConnection dispatch s ((cutsOf lost pending arrivals).map Cut.whole)).1 := by
  induction arrivals generalizing lost pending s with
  | nil =>
    unfold cutsOf
    rw [List.filter_nil]
    unfold bufLines
    split
    · rename_i empty
      rw [List.map_singleton,Cut.whole,empty,handle_blank (lineEvent_nil_blank false)]
    · rfl
  | cons arrival rest ih =>
    cases arrival with
    | timedOut =>
      rw [cutsOf,← ih (lost ++ pending) [] s]
      simp
    | byte value =>
      rw [List.filter_cons_of_pos (by simp)]
      unfold bufLines cutsOf
      split
      · exact handle_cons_congr (ih [] []) _ s
      · rw [← ih lost (pending ++ [value]) s,List.append_assoc]

theorem arrivalIrrelevant_iff_cuts (reads : List Read) : ArrivalIrrelevant reads ↔
    ∀ (W : Type) (b : Bridge W) (dispatch : Tool W) (s : Served W),
      (b.handleConnection dispatch s ((cuts reads).map Cut.delivered)).1 =
        (b.handleConnection dispatch s ((cuts reads).map Cut.whole)).1 := by
  have bytes : (inOnePiece reads).flatMap Read.arrivals = (reads.flatMap Read.arrivals).filter (· ≠ .timedOut) := by
    induction reads with
    | nil => rfl
    | cons read rest ih =>
      rw [List.flatMap_cons,List.filter_append,← ih]
      cases read with
      | data bytes =>
        have kept : (Read.data bytes).arrivals.filter (· ≠ .timedOut) = (Read.data bytes).arrivals := by
          apply List.filter_eq_self.mpr
          simp [Read.arrivals]
        rw [kept]
        rfl
      | timedOut => rfl
  unfold ArrivalIrrelevant linesOf cuts
  simp only [bytes]
  constructor
  · intro same W b dispatch s
    rw [← handle_bufLines,← handle_inOnePiece]
    exact same W b dispatch s
  · intro same W b dispatch s
    rw [handle_bufLines [] [],same W b dispatch s,← handle_inOnePiece]
    rfl

theorem blank_iff {text : String} {writeError : Option String} :
    (Event.line text writeError).blank = true ↔ ∀ c ∈ text.toList, isWhiteSpace c = true := by
  rw [Event.blank,decide_eq_true_eq,trim_eq_empty_iff]

theorem lineEvent_eq_line {bytes : List UInt8} {ended : Bool} {text : String} {writeError : Option String}
    (made : lineEvent bytes ended = .line text writeError) : lineBytes bytes ended = text.toByteArray.toList := by
  unfold lineEvent at made
  split at made
  · rename_i decoded
    cases made
    exact decodeUtf8_eq_some.mp decoded
  · cases made

theorem lineBytes_append (lost : List UInt8) {rest : List UInt8} (more : rest ≠ []) (ended : Bool) :
    lineBytes (lost ++ rest) ended = lost ++ lineBytes rest ended := by
  unfold lineBytes
  rw [List.getLast?_append_of_ne_nil lost more,List.dropLast_append_of_ne_nil more]
  split <;> rfl

/-- The rest of a line, where it is text, is an end of the line, and not all of it unless nothing
was lost. -/
theorem Cut.rest_suffix {c : Cut} {text rest : String} {writeError writeError' : Option String}
    (whole : c.whole = .line text writeError) (delivered : c.delivered = .line rest writeError') :
    rest.toList <:+ text.toList ∧ (rest = text → rest ≠ "" → c.lost = []) := by
  have wholeBytes := lineEvent_eq_line whole
  have restBytes := lineEvent_eq_line delivered
  by_cases more : c.rest = []
  · have empty : rest = "" := by
      apply toByteArray_toList_injective
      change rest.toByteArray.toList = "".toByteArray.toList
      rw [← restBytes,more,toByteArray_toList_flatMap]
      simp [lineBytes]
    subst empty
    exact ⟨List.nil_suffix, fun _ filled => absurd rfl filled⟩
  · rw [lineBytes_append c.lost more,restBytes] at wholeBytes
    constructor
    · rw [toByteArray_toList_flatMap,toByteArray_toList_flatMap] at wholeBytes
      exact flatMap_suffix wholeBytes.symm
    · rintro rfl -
      simpa using wholeBytes

/-- The texts a connection asks the decoder for, when it takes them all. -/
def taken : List Event → List String
  | [] => []
  | .line text writeError :: rest =>
    if trim text = "" then taken rest else text :: if writeError.isSome = true then [] else taken rest
  | .timedOut shutdown :: rest => if shutdown then [] else taken rest
  | .closed :: _ => []
  | .failed _ :: _ => []

/-- A bridge that decodes every line to a request for a tool of that name. -/
def recorder : Bridge Unit where
  dispatcher := fun world _ _ => (world, .ok .null)
  sandboxTools := fun world _ _ => (world, .ok .null)
  parse := fun text => .ok ⟨text, .null, none⟩
  clock := fun _ => ""
  maxToolCalls := 0
  allowedTools := []
  expectedRpcToken := ""

theorem recorder_taken (events : List Event) (s : Served Unit) :
    ((recorder.handleConnection recorder.jsDispatch s events).1.answers.map (fun answer => answer.verdict.2.tool)) =
      s.answers.map (fun answer => answer.verdict.2.tool) ++ taken events := by
  induction events generalizing s with
  | nil => simp [Bridge.handleConnection,taken]
  | cons event rest ih =>
    cases event with
    | timedOut shutdown => cases shutdown <;> simp [Bridge.handleConnection,taken,ih]
    | closed => simp [Bridge.handleConnection,taken]
    | failed e => simp [Bridge.handleConnection,taken]
    | line text writeError =>
      unfold Bridge.handleConnection taken
      split
      · exact ih s
      · cases writeError with
        | some e => simp [recorder,Bridge.answer,validateRpcToken,Answer.verdict]
        | none =>
          have step := ih (recorder.answer recorder.jsDispatch s ⟨text, .null, none⟩)
          simpa [recorder,Bridge.answer,validateRpcToken,Answer.verdict] using step

/-- A blank line has a blank rest. -/
theorem Cut.delivered_blank {c : Cut} (blank : c.whole.blank = true) (isText : c.delivered.isText = true) :
    c.delivered.blank = true := by
  cases whole : c.whole with
  | line text writeError =>
    cases delivered : c.delivered with
    | line rest writeError' =>
      rw [whole,blank_iff] at blank
      rw [blank_iff]
      intro ch member
      exact blank ch ((c.rest_suffix whole delivered).1.subset member)
    | _ =>
      rw [delivered] at isText
      cases isText
  | _ =>
    rw [whole] at blank
    cases blank

theorem same_of_harmless {cuts : List Cut} (harmless : Harmless cuts) (s : Served W) :
    (b.handleConnection dispatch s (cuts.map Cut.delivered)).1 = (b.handleConnection dispatch s (cuts.map Cut.whole)).1 := by
  induction cuts generalizing s with
  | nil => rfl
  | cons c more ih =>
    rw [List.map_cons,List.map_cons]
    rcases harmless with ⟨nothing, later⟩ | ⟨blank, isText, later⟩ | ⟨blank, broken, later⟩
    · have same : c.delivered = c.whole := by rw [Cut.delivered,Cut.whole,nothing,List.nil_append]
      rw [same]
      exact handle_cons_congr (ih later) c.whole s
    · rw [handle_blank (c.delivered_blank blank isText),handle_blank blank]
      exact ih later s
    · obtain ⟨e, failed⟩ : ∃ e, c.delivered = .failed e := lineEvent_failed broken
      have quiet : ∀ event ∈ more.map Cut.whole, event.blank = true := by
        intro event member
        obtain ⟨d, inside, rfl⟩ := List.mem_map.mp member
        exact later d inside
      rw [failed,handle_blank blank,handle_blanks quiet]
      rfl

/-- Every line that was written is text. -/
def Textual (cuts : List Cut) : Prop := ∀ c ∈ cuts, c.whole.isText = true

theorem taken_line (text : String) (rest : List Event) :
    taken (.line text none :: rest) = if trim text = "" then taken rest else text :: taken rest := by
  simp [taken]

/-- No more arrives than was written. -/
theorem taken_delivered_le {cuts : List Cut} (textual : Textual cuts) :
    (taken (cuts.map Cut.delivered)).length ≤ (taken (cuts.map Cut.whole)).length := by
  induction cuts with
  | nil => exact Nat.le_refl _
  | cons c more ih =>
    have later := ih (fun d inside => textual d (List.mem_cons_of_mem _ inside))
    obtain ⟨text, whole⟩ : ∃ text, c.whole = .line text none := lineEvent_text (textual c List.mem_cons_self)
    rw [List.map_cons,List.map_cons,whole,taken_line]
    cases isText : c.delivered.isText with
    | false =>
      obtain ⟨e, failed⟩ : ∃ e, c.delivered = .failed e := lineEvent_failed isText
      rw [failed]
      exact Nat.zero_le _
    | true =>
      obtain ⟨rest, delivered⟩ : ∃ rest, c.delivered = .line rest none := lineEvent_text isText
      have blankRest (blank : trim text = "") : trim rest = "" := by
        have := c.delivered_blank (by rw [whole,Event.blank]; exact decide_eq_true blank) isText
        rw [delivered] at this
        exact of_decide_eq_true this
      rw [delivered,taken_line]
      by_cases blank : trim text = ""
      · rw [if_pos blank,if_pos (blankRest blank)]
        exact later
      · rw [if_neg blank,List.length_cons]
        split
        · omega
        · rw [List.length_cons]
          omega

/-- When nothing of a text is taken, all of it is blank. -/
theorem blank_of_taken_nil {cuts : List Cut} (textual : Textual cuts) (nothing : taken (cuts.map Cut.whole) = []) :
    ∀ c ∈ cuts, c.whole.blank = true := by
  induction cuts with
  | nil => nofun
  | cons c more ih =>
    obtain ⟨text, whole⟩ : ∃ text, c.whole = .line text none := lineEvent_text (textual c List.mem_cons_self)
    rw [List.map_cons,whole,taken_line] at nothing
    split at nothing
    · rename_i blank
      intro d inside
      rcases List.mem_cons.mp inside with rfl | later
      · rw [whole,Event.blank]
        exact decide_eq_true blank
      · exact ih (fun d inside => textual d (List.mem_cons_of_mem _ inside)) nothing d later
    · cases nothing

/-- A text arrives as it was written only if no timeout does harm. -/
theorem harmless_of_taken {cuts : List Cut} (textual : Textual cuts)
    (same : taken (cuts.map Cut.delivered) = taken (cuts.map Cut.whole)) : Harmless cuts := by
  induction cuts with
  | nil => trivial
  | cons c more ih =>
    have later : Textual more := fun d inside => textual d (List.mem_cons_of_mem _ inside)
    have fewer := taken_delivered_le later
    obtain ⟨text, whole⟩ : ∃ text, c.whole = .line text none := lineEvent_text (textual c List.mem_cons_self)
    rw [List.map_cons,List.map_cons,whole,taken_line] at same
    cases isText : c.delivered.isText with
    | false =>
      obtain ⟨e, failed⟩ : ∃ e, c.delivered = .failed e := lineEvent_failed isText
      rw [failed] at same
      split at same
      · rename_i blank
        refine .inr (.inr ⟨?_, isText, blank_of_taken_nil later same.symm⟩)
        rw [whole,Event.blank]
        exact decide_eq_true blank
      · cases same
    | true =>
      obtain ⟨rest, delivered⟩ : ∃ rest, c.delivered = .line rest none := lineEvent_text isText
      rw [delivered,taken_line] at same
      by_cases blank : trim text = ""
      · have wholeBlank : c.whole.blank = true := by
          rw [whole,Event.blank]
          exact decide_eq_true blank
        have restBlank := c.delivered_blank wholeBlank isText
        rw [delivered] at restBlank
        rw [if_pos blank,if_pos (of_decide_eq_true restBlank)] at same
        exact .inr (.inl ⟨wholeBlank, isText, ih later same⟩)
      · rw [if_neg blank] at same
        by_cases restBlank : trim rest = ""
        · -- one line less arrives, and the lines behind it do not make up for that
          rw [if_pos restBlank] at same
          rw [same,List.length_cons] at fewer
          omega
        · rw [if_neg restBlank] at same
          obtain ⟨equal, tails⟩ := List.cons.inj same
          refine .inl ⟨(c.rest_suffix whole delivered).2 equal ?_, ih later tails⟩
          rintro rfl
          exact restBlank rfl

/-- Where no timeout does harm the arrival of the bytes is irrelevant, and for text nowhere else. -/
theorem arrival_irrelevant_iff (reads : List Read) : (Harmless (cuts reads) → ArrivalIrrelevant reads) ∧
    (Textual (cuts reads) → (ArrivalIrrelevant reads ↔ Harmless (cuts reads))) := by
  have enough (harmless : Harmless (cuts reads)) : ArrivalIrrelevant reads :=
    (arrivalIrrelevant_iff_cuts reads).mpr (fun _ _ _ s => same_of_harmless harmless s)
  refine ⟨enough, fun textual => ⟨?_, enough⟩⟩
  intro irrelevant
  apply harmless_of_taken textual
  have recorded := (arrivalIrrelevant_iff_cuts reads).mp irrelevant Unit recorder recorder.jsDispatch (Bridge.start ())
  have answers := congrArg (fun s => s.answers.map (fun answer => answer.verdict.2.tool)) recorded
  simpa only [recorder_taken,Bridge.start,List.map_nil,List.nil_append] using answers

/-- `{"tool":"t","args":1}`. -/
def requestBytes : List UInt8 :=
  [123, 34, 116, 111, 111, 108, 34, 58, 34, 116, 34, 44, 34, 97, 114, 103, 115, 34, 58, 49, 125]

/-- A timeout before, between and behind two requests, the second of them in two reads. -/
def polledReads : List Read :=
  [.timedOut, .data (requestBytes ++ [newline]), .timedOut, .data (requestBytes.take 7),
    .data (requestBytes.drop 7 ++ [newline]), .timedOut]

theorem polled_irrelevant : ArrivalIrrelevant polledReads :=
  (arrival_irrelevant_iff polledReads).1 (.inl ⟨rfl, .inl ⟨rfl, .inl ⟨rfl, trivial⟩⟩⟩)

/-- A timeout after the first seven bytes of a request. -/
def interruptedReads : List Read :=
  [.data (requestBytes.take 7), .timedOut, .data (requestBytes.drop 7 ++ [newline])]

def requestLine : String := "\x7b\"tool\":\"t\",\"args\":1\x7d"

/-- A decoder that knows the one request. -/
def requestBridge : Bridge Unit where
  dispatcher := recorder.dispatcher
  sandboxTools := recorder.sandboxTools
  parse := fun text =>
    if text = requestLine then .ok ⟨"t", .num (.posInt 1), none⟩ else .error "expected value at line 1 column 1"
  clock := recorder.clock
  maxToolCalls := 50
  allowedTools := ["t"]
  expectedRpcToken := "0123456789abcdef"

/-- The request is never answered and the connection ends. -/
theorem interrupted_lost :
    (requestBridge.handleConnection requestBridge.jsDispatch (Bridge.start ()) (linesOf interruptedReads)).1.answers.length = 0 ∧
    (requestBridge.handleConnection requestBridge.jsDispatch (Bridge.start ())
      (linesOf (inOnePiece interruptedReads))).1.answers.length = 1 ∧ ¬ArrivalIrrelevant interruptedReads := by
  have lost : (requestBridge.handleConnection requestBridge.jsDispatch (Bridge.start ())
      (linesOf interruptedReads)).1.answers.length = 0 := by decide
  have one : (requestBridge.handleConnection requestBridge.jsDispatch (Bridge.start ())
      (linesOf (inOnePiece interruptedReads))).1.answers.length = 1 := by decide
  refine ⟨lost, one, ?_⟩
  intro irrelevant
  rw [irrelevant,one] at lost
  cases lost

end Zaion.Exec
