import CommandShell.Machine.Standard
import CommandShell.Proofs.Files.Written
import CommandShell.Proofs.Line.Quoting
import CommandShell.Proofs.Line.Redirected
import CommandShell.Proofs.Shell.History

/-!
Commands whose output is sent to a file. Such a line comes to what its command alone comes to, and
then a success writes its output to the file. A run of such lines leaves in the file what was
written last over it and everything written behind that.
-/
namespace CommandShell

namespace Line

/-- A target that names the same file whatever the variables and the current directory are. -/
structure Fixed (u : Text) : Prop where
  absolute : Path.isAbsolute u = true
  blank : ∀ c ∈ u, Text.isBlank c = false
  quote : ∀ c ∈ u, isQuote c = false
  dollar : '$' ∉ u
  percent : '%' ∉ u
  unmarked : Unmarked u

theorem unquote_of_no_quote {u : Text} (h : ∀ c ∈ u, isQuote c = false) : unquote u = u := by
  have kept (s : Scan) : unquoteFrom s u = u := by
    induction u generalizing s with
    | nil => rfl
    | cons c u ih =>
        obtain ⟨plain, later⟩ := List.forall_mem_cons.1 h
        have next : startsWithQuote u = false := by
          cases u with
          | nil => rfl
          | cons d u => exact later d List.mem_cons_self
        simp [unquoteFrom, next, Scan.toggles, plain, ih later]
  exact kept {}

/-- The target of the output, and whether it goes behind what is there. -/
def Direction.target? (u : Text) : Direction → Option (Text × Bool)
  | input => none
  | append => some (u, true)
  | output => some (u, false)

end Line

namespace State

theorem targetPath_of_fixed {u : Text} (h : Line.Fixed u) (s : State) : s.targetPath u = u := by
  rw [targetPath, Line.expand_of_not_mem s.value? h.dollar h.percent,
    Line.unquote_of_no_quote h.quote, Environment.resolve, Path.join, if_pos h.absolute]

theorem deliver_of_write {u : Text} (h : Line.Fixed u) {s : State} {append : Bool} {r : Result}
    {files : Files} (write : s.files.write u append (Text.encode r.output) = .ok files) :
    s.deliver u append r = (s.withFiles files, .result { r with output := [] }) := by
  rw [deliver, targetPath_of_fixed h, write]

theorem deliver_of_refused {u : Text} (h : Line.Fixed u) {s : State} {append : Bool} {r : Result}
    {files : Files} {cause : IoError}
    (write : s.files.write u append (Text.encode r.output) = .error ⟨files, cause⟩) :
    s.deliver u append r = (s.withFiles files).fail (.redirectionFailed cause) := by
  rw [deliver, targetPath_of_fixed h, write]

/-- A redirected line runs its command as a line of its own, and then delivers the output. -/
theorem runKind_redirected (t : BuiltinTable) (s : State) {c u : Text} (hc : Line.Unmarked c)
    (hu : Line.Unmarked u) (shown : Text.allBlank c = false) (target : Text.allBlank u = false)
    (d : Line.Direction) (foreground : Line.hasBackgroundMark (c ++ d.mark ++ u) = false)
    (cancelled : Bool) :
    runKind t s (c ++ d.mark ++ u) cancelled =
      redirect (d.target? (Text.trim u)) (runSimple t s (Text.trim c) cancelled) := by
  rw [runKind, Line.kind_redirected hc hu d foreground]
  dsimp only
  rw [runRedirected, Line.redirection_redirected hc hu d shown target, runSimple]
  dsimp only
  cases s.parse (Text.trim c) with
  | nil => cases d <;> rfl
  | cons command later => cases d <;> rfl

theorem redirect_success {s : State} {u : Text} {append : Bool} {r : Result}
    (success : r.success = true) :
    redirect (some (u, append)) (s, .result r) = s.deliver u append r :=
  if_pos success

theorem redirect_failure {s : State} {target? : Option (Text × Bool)} {r : Result}
    (failure : r.success = false) :
    redirect target? (s, .result r) = (s, .result r) := by
  cases target? with
  | none => rfl
  | some target => simp [redirect, failure]

end State

/-- A command whose output is sent to a file: behind what the file has, or instead of it. -/
structure Sending where
  command : Text
  append : Bool
  /-- Whether the wait for its processes is given up. -/
  cancelled : Bool := false

namespace Sending

def direction (x : Sending) : Line.Direction := if x.append then .append else .output

def line (x : Sending) (target : Text) : Text := x.command ++ x.direction.mark ++ target

/-- The command as a line of its own. -/
def alone (x : Sending) (s : Session) : Session × Answer := s.execute x.command x.cancelled

def sent (x : Sending) (target : Text) (s : Session) : Session × Answer :=
  s.execute (x.line target) x.cancelled

/-- A command that can be sent to a file in a session: it is one trimmed command without operators
that does not end the shell, looks at no history, and leaves the file alone. -/
structure Suits (x : Sending) (target : Text) (s : Session) : Prop where
  shown : Text.allBlank x.command = false
  trimmed : Text.trim x.command = x.command
  unmarked : Line.Unmarked x.command
  foreground : '&' ∉ x.command
  answers : ∃ r, (x.alone s).2 = .result r
  forgetful : State.ReadsNoHistory s.builtins s.state x.command x.cancelled
  apart : (x.alone s).1.state.files.contentAt target = s.state.files.contentAt target

/-- The bytes that a command sent to a file brings to it, and whether they go behind what was there.
A command that fails brings nothing, and neither does one whose target cannot be opened. -/
def arrival? (x : Sending) (target : Text) (s : Session) : Option (Bool × Bytes) :=
  match (x.alone s).2 with
  | .result r =>
    if r.success then
      ((x.alone s).1.state.files.arriving? target x.append (Text.encode r.output)).map (x.append, ·)
    else none
  | _ => none

/-- What a command sent to a file has come to, if it comes to `r` alone, and what it has brought to
the file. -/
inductive Delivery (x : Sending) (target : Text) (s : Session) (r : Result) :
    Option (Bool × Bytes) → Prop
  | failure (fails : r.success = false)
      (answer : (x.sent target s).2 = .result r)
      (effects : (x.sent target s).1.state.forget = (x.alone s).1.state.forget)
      (content : (x.sent target s).1.state.files.contentAt target =
        s.state.files.contentAt target) : Delivery x target s r none
  | success (files : Files) (succeeds : r.success = true)
      (write : (x.alone s).1.state.files.write target x.append (Text.encode r.output) = .ok files)
      (answer : (x.sent target s).2 = .result { r with output := [] })
      (effects : (x.sent target s).1.state.forget = ((x.alone s).1.state.withFiles files).forget)
      (content : (x.sent target s).1.state.files.contentAt target =
        .ok (Files.written x.append (Text.encode r.output) (s.state.files.contentAt target))) :
      Delivery x target s r (some (x.append, Text.encode r.output))
  | unopened (cause : IoError) (failed : Result) (succeeds : r.success = true)
      (write : (x.alone s).1.state.files.write target x.append (Text.encode r.output) =
        .error ⟨(x.alone s).1.state.files, cause⟩)
      (answer : (x.sent target s).2 = .result failed)
      (fails : failed.success = false) (code : failed.code = 1) (output : failed.output = [])
      (effects : (x.sent target s).1.state.forget = (x.alone s).1.state.forget)
      (content : (x.sent target s).1.state.files.contentAt target =
        s.state.files.contentAt target) : Delivery x target s r none
  | broken (files : Files) (cause : IoError) (part : Bytes) (failed : Result)
      (succeeds : r.success = true)
      (write : (x.alone s).1.state.files.write target x.append (Text.encode r.output) =
        .error ⟨files, cause⟩)
      (first : part <+: Text.encode r.output) (short : part.length < (Text.encode r.output).length)
      (answer : (x.sent target s).2 = .result failed)
      (fails : failed.success = false) (code : failed.code = 1) (output : failed.output = [])
      (effects : (x.sent target s).1.state.forget = ((x.alone s).1.state.withFiles files).forget)
      (content : (x.sent target s).1.state.files.contentAt target =
        .ok (Files.written x.append part (s.state.files.contentAt target))) :
      Delivery x target s r (some (x.append, part))

section
variable {x : Sending} {target : Text} {s : Session} (suits : x.Suits target s)
  (fixed : Line.Fixed target)
include suits fixed

theorem foreground_line : Line.hasBackgroundMark (x.line target) = false := by
  apply Line.hasBackgroundMark_append_word _ fixed.blank
  · rintro rfl
    cases fixed.absolute
  · rintro rfl
    cases fixed.absolute

theorem runKind_line (t : BuiltinTable) (state : State) :
    State.runKind t state (x.line target) x.cancelled =
      State.redirect (some (target, x.append))
        (State.runKind t state x.command x.cancelled) := by
  have named : Text.allBlank target = false := by
    cases target with
    | nil => cases fixed.absolute
    | cons c rest => simp [Text.allBlank, fixed.blank c List.mem_cons_self]
  have whole : Text.trim target = target := Text.trim_of_not_blank fixed.blank
  have simple := suits.unmarked.kind
    (Line.hasBackgroundMark_append_shown [] suits.shown suits.foreground)
  have redirected := State.runKind_redirected t state suits.unmarked fixed.unmarked suits.shown
    named x.direction (foreground_line suits fixed) x.cancelled
  have place : x.direction.target? target = some (target, x.append) := by
    obtain ⟨command, append, cancelled⟩ := x
    cases append <;> rfl
  rw [line, redirected, whole, place, suits.trimmed, State.runKind, simple]

omit fixed in
theorem allBlank_line : Text.allBlank (x.line target) = false := by
  rw [line, Text.allBlank_append, Text.allBlank_append, suits.shown]
  rfl

/-- Both lines do the same until the output is delivered, history aside. -/
theorem exists_runLine : ∃ (ran : State) (r : Result) (history : List Text),
    let elapsed := ran.machine.clock - s.state.machine.clock
    State.runLine s.builtins s.state x.command x.cancelled =
        (ran, .result (r.withElapsed elapsed)) ∧
      State.runLine s.builtins s.state (x.line target) x.cancelled =
        State.timed s.state.machine.clock
          (State.redirect (some (target, x.append)) (ran.withHistory history, .result r)) := by
  obtain ⟨first, recorded⟩ := s.state.exists_withHistory_addHistory x.command
  obtain ⟨second, recorded'⟩ := s.state.exists_withHistory_addHistory (x.line target)
  -- The two lines are recorded differently, and the command does not look at what is recorded.
  have alike := (suits.forgetful second).trans (suits.forgetful first).symm
  obtain ⟨history, alike⟩ := State.eq_of_forgetIn alike
  have answers := suits.answers
  simp only [alone, Session.execute] at answers
  rw [State.runLine_of_shown _ _ suits.shown, recorded] at answers ⊢
  rw [State.runLine_of_shown _ _ (allBlank_line suits), recorded', runKind_line suits fixed]
  rw [alike]
  obtain ⟨said, answers⟩ := answers
  generalize State.runKind s.builtins (s.state.withHistory first) x.command x.cancelled = outcome
    at answers ⊢
  obtain ⟨ran, answer⟩ := outcome
  cases answer with
  | result r => exact ⟨ran, r, history, rfl, rfl⟩
  | quits code => cases answers
  | broke message => cases answers

/-- What a command sent to a file comes to follows from what it comes to alone. -/
theorem delivery {r : Result} (said : (x.alone s).2 = .result r) :
    x.Delivery target s r (x.arrival? target s) := by
  obtain ⟨ran, plain, history, one, two⟩ := exists_runLine suits fixed
  obtain ⟨elapsed, time⟩ : ∃ n, ran.machine.clock - s.state.machine.clock = n := ⟨_, rfl⟩
  have alone : x.alone s = (s.withState ran.settle, .result (plain.withElapsed elapsed)) := by
    rw [alone, Session.execute, one, time]
  have files : (x.alone s).1.state.files = ran.files := by
    rw [alone, Session.withState, State.files_settle]
  -- Supervisors take their steps last, on both lines, and these change no files.
  have kept : ran.files.contentAt target = s.state.files.contentAt target := by
    rw [← suits.apart, files]
  have arrives : x.arrival? target s =
      if plain.success then
        (ran.files.arriving? target x.append (Text.encode plain.output)).map (x.append, ·)
      else none := by
    rw [arrival?, files, alone]
    rfl
  rw [alone] at said
  cases said
  rw [arrives]
  cases success : plain.success with
  | false =>
      have sent : x.sent target s =
          (s.withState (ran.withHistory history).settle, .result (plain.withElapsed elapsed)) := by
        rw [sent, Session.execute, two, State.redirect_failure success, ← time]
        rfl
      refine .failure success ?_ ?_ ?_
      · rw [sent]
      · rw [sent, alone, Session.withState, State.settle_withHistory]
        rfl
      · rw [sent, Session.withState, State.files_settle]
        exact kept
  | true =>
      have refused (after : Files) (cause : IoError)
          (write : ran.files.write target x.append (Text.encode plain.output) =
            .error ⟨after, cause⟩) :
          x.sent target s = (s.withState ((ran.withFiles after).withHistory history).settle,
            .result ((ShellError.redirectionFailed cause).result.withElapsed elapsed)) := by
        have stopped := State.deliver_of_refused fixed (s := ran.withHistory history) write
        rw [sent, Session.execute, two, State.redirect_success success, stopped, ← time]
        rfl
      have outcome := ran.files.write_outcome target x.append (Text.encode plain.output)
      rw [if_pos rfl]
      generalize write : ran.files.write target x.append (Text.encode plain.output) = written,
        arriving : ran.files.arriving? target x.append (Text.encode plain.output) = arrived
        at outcome ⊢
      cases outcome with
      | whole after content =>
          have delivered := State.deliver_of_write fixed (s := ran.withHistory history) write
          have sent : x.sent target s =
              (s.withState ((ran.withFiles after).withHistory history).settle,
                .result { plain.withElapsed elapsed with output := [] }) := by
            rw [sent, Session.execute, two, State.redirect_success success, delivered, ← time]
            rfl
          refine .success after success ?_ ?_ ?_ ?_
          · rw [files]
            exact write
          · rw [sent]
          · rw [sent, alone, Session.withState, State.settle_withHistory, State.settle_withFiles]
            rfl
          · rw [sent, Session.withState, State.files_settle, ← kept]
            exact content
      | unopened cause =>
          have sent := refused _ cause write
          refine .unopened cause _ success ?_ (congrArg Prod.snd sent) rfl rfl rfl ?_ ?_
          · rw [files]
            exact write
          · rw [sent, alone, Session.withState, State.settle_withHistory]
            rfl
          · rw [sent, Session.withState, State.files_settle]
            exact kept
      | @broken after cause part first short content =>
          have sent := refused after cause write
          refine .broken after cause part _ success ?_ first short (congrArg Prod.snd sent) rfl rfl
            rfl ?_ ?_
          · rw [files]
            exact write
          · rw [sent, alone, Session.withState, State.settle_withHistory, State.settle_withFiles]
            rfl
          · rw [sent, Session.withState, State.files_settle, ← kept]
            exact content

end

def sentAll (target : Text) (s : Session) (xs : List Sending) : Session :=
  xs.foldl (fun s x => (x.sent target s).1) s

/-- What some commands, sent to a file one after the other, bring to it. -/
def arrivals (target : Text) (s : Session) : List Sending → List (Bool × Bytes)
  | [] => []
  | x :: later => (x.arrival? target s).toList ++ arrivals target (x.sent target s).1 later

/-- What a path leads to after some bytes have arrived. -/
def received (before : Except IoError Content) (log : List (Bool × Bytes)) :
    Except IoError Content :=
  log.foldl (fun before a => .ok (Files.written a.1 a.2 before)) before

theorem received_append (before : Except IoError Content) (log more : List (Bool × Bytes)) :
    received before (log ++ more) = received (received before log) more :=
  List.foldl_append

theorem written_received (bytes : Bytes) (before : Except IoError Content)
    (log : List (Bool × Bytes)) :
    Files.written false bytes (received before log) = Files.written false bytes before := by
  induction log generalizing before with
  | nil => rfl
  | cons a log ih => exact (ih _).trans (Files.written_over ..)

theorem received_behind {append : Bool} {bytes : Bytes} {log : List (Bool × Bytes)}
    (behind : ∀ a ∈ log, a.1 = true) (before : Except IoError Content) :
    received before ((append, bytes) :: log) =
      .ok (Files.written append (bytes ++ log.flatMap Prod.snd) before) := by
  induction log generalizing append bytes before with
  | nil => simp [received]
  | cons a log ih =>
      obtain ⟨first, later⟩ := List.forall_mem_cons.1 behind
      obtain ⟨_, more⟩ := a
      obtain rfl : _ = true := first
      calc received before ((append, bytes) :: (true, more) :: log)
        _ = received (received before [(append, bytes)]) ((true, more) :: log) := rfl
        _ = .ok (Files.written true (more ++ log.flatMap Prod.snd)
              (.ok (Files.written append bytes before))) := ih later _
        _ = .ok (Files.written append (bytes ++ (more ++ log.flatMap Prod.snd)) before) := by
          rw [Files.written_behind]

theorem content_sent {x : Sending} {target : Text} {s : Session} (suits : x.Suits target s)
    (fixed : Line.Fixed target) :
    (x.sent target s).1.state.files.contentAt target =
      received (s.state.files.contentAt target) (x.arrival? target s).toList := by
  obtain ⟨r, said⟩ := suits.answers
  have outcome := delivery suits fixed said
  generalize x.arrival? target s = arrival at outcome ⊢
  cases outcome with
  | failure _ _ _ content | success _ _ _ _ _ content | unopened _ _ _ _ _ _ _ _ _ content
  | broken _ _ _ _ _ _ _ _ _ _ _ _ _ content => exact content

theorem content_sentAll {target : Text} (fixed : Line.Fixed target) {s : Session}
    {xs : List Sending}
    (suits : ∀ earlier x later, xs = earlier ++ x :: later →
      x.Suits target (sentAll target s earlier)) :
    (sentAll target s xs).state.files.contentAt target =
      received (s.state.files.contentAt target) (arrivals target s xs) := by
  induction xs generalizing s with
  | nil => rfl
  | cons x later ih =>
      have here : x.Suits target s := suits [] x later rfl
      have first := content_sent here fixed
      rw [arrivals, received_append, ← first]
      apply ih
      intro earlier y rest split
      exact suits (x :: earlier) y rest (by rw [split, List.cons_append])

/-- A command that says the same in every state and changes nothing can be sent anywhere. -/
theorem suits_of_constant {x : Sending} {s : Session} (r : Result)
    (shown : Text.allBlank x.command = false) (trimmed : Text.trim x.command = x.command)
    (unmarked : Line.Unmarked x.command) (foreground : '&' ∉ x.command)
    (constant : ∀ state, State.runKind s.builtins state x.command x.cancelled = (state, .result r))
    (target : Text) : x.Suits target s := by
  obtain ⟨history, recorded⟩ := s.state.exists_withHistory_addHistory x.command
  have alone : x.alone s =
      (s.withState (s.state.withHistory history).settle,
        .result (r.withElapsed (s.state.machine.clock - s.state.machine.clock))) := by
    rw [Sending.alone, Session.execute, State.runLine_of_shown _ _ shown, constant, recorded]
    rfl
  constructor
  · exact shown
  · exact trimmed
  · exact unmarked
  · exact foreground
  · exact ⟨_, congrArg Prod.snd alone⟩
  · intro history
    rw [constant, constant]
    rfl
  · rw [alone, Session.withState, State.files_settle]
    rfl

theorem builtins_sentAll (target : Text) (s : Session) (xs : List Sending) :
    (sentAll target s xs).builtins = s.builtins := by
  induction xs generalizing s with
  | nil => rfl
  | cons x later ih => exact ih _

/-- Every line that sends the output of a suitable command to a fixed target comes to what the
command comes to alone, apart from the output, which goes to the target: all of it, or only the
first bytes if the write breaks off once the target is open. After a run of such lines the target
holds what it has been brought since it was written over last, or else what it held at the start and
all that it has been brought. -/
theorem delivery_of_sent {target : Text} (fixed : Line.Fixed target) (s : Session) :
    (∀ x : Sending, x.Suits target s →
      ∃ r, (x.alone s).2 = .result r ∧ x.Delivery target s r (x.arrival? target s)) ∧
    ∀ xs : List Sending,
      (∀ earlier x later, xs = earlier ++ x :: later →
        x.Suits target (sentAll target s earlier)) →
      let before := s.state.files.contentAt target
      let content := (sentAll target s xs).state.files.contentAt target
      let log := arrivals target s xs
      (∀ earlier bytes later, log = earlier ++ (false, bytes) :: later →
        (∀ a ∈ later, a.1 = true) →
        content = .ok (Files.written false (bytes ++ later.flatMap Prod.snd) before)) ∧
      ((∀ a ∈ log, a.1 = true) →
        content = if log = [] then before
          else .ok (Files.written true (log.flatMap Prod.snd) before)) := by
  constructor
  · intro x suits
    obtain ⟨r, said⟩ := suits.answers
    exact ⟨r, said, delivery suits fixed said⟩
  · intro xs suits before content log
    have held : content = received before log := content_sentAll fixed suits
    constructor
    · intro earlier bytes later split behind
      -- What came before the last output that was not appended is written over.
      rw [held, split, received_append, received_behind behind, written_received]
    · intro behind
      rw [held]
      cases found : log with
      | nil => rfl
      | cons a later =>
          rw [found] at behind
          obtain ⟨first, more⟩ := List.forall_mem_cons.1 behind
          obtain ⟨append, bytes⟩ := a
          obtain rfl : append = true := first
          rw [received_behind more, if_neg (List.cons_ne_nil _ _)]
          rfl

theorem delivery_of_sent_log :
    let s := Session.start { assets := [] } [] (Machine.standard 0 "/home".toList)
    let target := "/home/log".toList
    let xs : List Sending :=
      [⟨"echo one".toList, false, false⟩, ⟨"bg".toList, false, false⟩,
        ⟨"echo two".toList, true, false⟩]
    (∀ earlier x later, xs = earlier ++ x :: later →
      x.Suits target (sentAll target s earlier)) ∧
    (sentAll target s xs).state.files.contentAt target =
      .ok (.file (Text.encode "one\ntwo\n".toList)) := by
  intro s target xs
  have fixed : Line.Fixed target :=
    ⟨rfl, by simp [target, Text.isBlank], by simp [target, Line.isQuote], by decide, by decide,
      by decide, by decide, by decide⟩
  have suits (x : Sending) (hx : x ∈ xs) (s : Session) (table : s.builtins = .standard) :
      x.Suits target s := by
    simp only [xs, List.mem_cons, List.not_mem_nil, or_false] at hx
    have said (r : Result) (constant : ∀ state,
        State.runKind .standard state x.command x.cancelled = (state, .result r))
        (plain : Text.allBlank x.command = false ∧ Text.trim x.command = x.command ∧
          '|' ∉ x.command ∧ '<' ∉ x.command ∧ '>' ∉ x.command ∧ '&' ∉ x.command) :
        x.Suits target s := by
      obtain ⟨shown, trimmed, pipe, input, output, foreground⟩ := plain
      rw [← table] at constant
      exact suits_of_constant r shown trimmed ⟨pipe, input, output⟩ foreground constant target
    rcases hx with rfl | rfl | rfl
    · exact said (Result.ok "one\n".toList) (fun _ => rfl) (by decide)
    · exact said _ (fun _ => rfl) (by decide)
    · exact said (Result.ok "two\n".toList) (fun _ => rfl) (by decide)
  have all (earlier : List Sending) (x : Sending) (later : List Sending)
      (split : xs = earlier ++ x :: later) : x.Suits target (sentAll target s earlier) :=
    suits x (by simp [split]) _ (builtins_sentAll target s earlier)
  have log : arrivals target s xs =
      [(false, Text.encode "one\n".toList), (true, Text.encode "two\n".toList)] := by
    decide +kernel
  have run := (delivery_of_sent fixed s).2 xs all
  exact ⟨all, (run.1 [] (Text.encode "one\n".toList) _ log (by simp)).trans (by decide +kernel)⟩

theorem sent_output_kept_in_part :
    let s := Session.start { assets := [] } [] (Machine.standard 0 "/home".toList)
    let x : Sending := ⟨"echo hi".toList, false, false⟩
    let device := "/dev/null".toList
    let log := "/home/log".toList
    let full := s.withState (s.state.withFiles
      { s.state.files.layFile log (Text.encode "old".toList) Files.fileMode with
        faults := [some ⟨1, .noSpace⟩] })
    (Line.Fixed device ∧ x.Suits device s ∧
      (x.alone s).2 = .result (Result.ok "hi\n".toList) ∧
      (x.sent device s).2 = .result (Result.ok []) ∧
      (x.sent device s).1.state.files.contentAt device ≠
        .ok (.file (Text.encode "hi\n".toList))) ∧
    (Line.Fixed log ∧ x.Suits log full ∧
      full.state.files.contentAt log = .ok (.file (Text.encode "old".toList)) ∧
      (x.sent log full).2 = .result (Result.failure
        "Redirection failed: No space left on device (os error 28)".toList 1) ∧
      (x.sent log full).1.state.files.contentAt log = .ok (.file (Text.encode "h".toList))) := by
  intro s x device log full
  have fixed : ∀ target ∈ [device, log], Line.Fixed target := by
    refine List.forall_mem_cons.2 ⟨?_, List.forall_mem_singleton.2 ?_⟩
    · exact ⟨rfl, by simp [device, Text.isBlank], by simp [device, Line.isQuote], by decide,
        by decide, by decide, by decide, by decide⟩
    · exact ⟨rfl, by simp [log, Text.isBlank], by simp [log, Line.isQuote], by decide,
        by decide, by decide, by decide, by decide⟩
  have suits (target : Text) (s : Session) (table : s.builtins = .standard) :
      x.Suits target s := by
    apply suits_of_constant (Result.ok "hi\n".toList) (by decide) (by decide)
      ⟨by decide, by decide, by decide⟩ (by decide)
    intro state
    rw [table]
    rfl
  refine ⟨⟨fixed device (by decide), suits device s rfl, ?_⟩,
    fixed log (by decide), suits log full rfl, ?_⟩
  · decide +kernel
  · decide +kernel

end Sending

end CommandShell
