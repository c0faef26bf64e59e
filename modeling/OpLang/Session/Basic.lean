import OpLang.Parser.Item
import OpLang.Session.Sink
import OpLang.Session.Transcript

/-! # Sessions

A session reads items until the input ends and answers each with one line. After an error it passes
the offending token and goes on behind it. An interactive session prompts before it reads anything
and after every answer. When the sink refuses, the session stops where it is; it may be run again
and then resumes at the token behind the one at hand.
-/

namespace OpLang

/-- What became of one item. -/
inductive Reply where
  | parsed (item : Item)
  | rejected (error : ParseError)
deriving Inhabited

/-- What a session read: its items and its errors, each in the order of the input. -/
structure Report where
  items : Array Item
  errors : Array ParseError
deriving Inhabited

namespace Report

/-- A report of nothing. -/
def empty : Report := ⟨#[], #[]⟩

/-- A report with one more reply. -/
def add (report : Report) : Reply → Report
  | .parsed item => { report with items := report.items.push item }
  | .rejected error => { report with errors := report.errors.push error }

end Report

/-- A session: its parser, whether it prompts, where its output goes, and what it has shown since it
was last run. -/
structure Session (τ : Type) where
  parser : Parser τ
  interactive : Bool
  sink : Sink
  transcript : Array (Entry τ)

/-- The result of something that a session does: a value or a refusal of the sink. -/
abbrev Doing (τ α : Type) := Except SinkFault α × Session τ

/-- Go on after success. -/
def Doing.andThen {τ α β : Type} (doing : Doing τ α) (next : α → Session τ → Doing τ β) :
    Doing τ β :=
  match doing with
  | (.ok value, session) => next value session
  | (.error fault, session) => (.error fault, session)

/-- A sequence succeeds exactly when its parts do. -/
theorem Doing.andThen_eq_ok_iff {τ α β : Type} {doing : Doing τ α}
    {next : α → Session τ → Doing τ β} {value : β} {last : Session τ} :
    doing.andThen next = (.ok value, last) ↔
      ∃ first middle, doing = (.ok first, middle) ∧ next first middle = (.ok value, last) := by
  rcases doing with ⟨_ | first, middle⟩
  · simp [andThen]
  · constructor
    · exact fun went => ⟨first, middle, rfl, went⟩
    · rintro ⟨_, _, same, went⟩
      cases same
      exact went

/-- What the second part of a sequence leaves as it is has been settled by the first one. -/
theorem Doing.read_andThen {τ α β γ : Type} (read : Session τ → γ) {doing : Doing τ α}
    {next : α → Session τ → Doing τ β}
    (kept : ∀ value session, read (next value session).2 = read session) :
    read (doing.andThen next).2 = read doing.2 := by
  rcases doing with ⟨_ | value, session⟩
  · rfl
  · exact kept value session

namespace Session

variable {τ : Type}

/-- The text of a prompt. -/
def promptText : String := "ready> "

/-- The line that answers an item. -/
def announcement : ItemKind → String
  | .definition => "Parsed a function definition.\n"
  | .declaration => "Parsed an extern\n"
  | .expression => "Parsed a top-level expression\n"

/-- The line that answers an error. -/
def complaint (error : ParseError) : String := "Error: " ++ error.text ++ "\n"

/-- A session that has read nothing and does not prompt. -/
def ofParser (parser : Parser τ) : Session τ := ⟨parser, false, .unlimited, #[]⟩

/-- Show an event. -/
def record (session : Session τ) (event : Event) : Session τ :=
  { session with transcript := session.transcript.push (.event event) }

/-- Continue with another parser, whose log becomes part of what is shown. -/
def resume (session : Session τ) (parser : Parser τ) : Session τ :=
  { session with
    parser := { parser with log := #[] }
    transcript := session.transcript ++ parser.log.map .event }

/-- Write a text to the sink. -/
def write (text : String) (session : Session τ) : Doing τ Unit :=
  let (taken, fault?, sink) := session.sink.write text
  let session := { session with sink, transcript := session.transcript.push (.output taken) }
  match fault? with
  | none => (.ok (), session)
  | some fault => (.error fault, session)

/-- Flush the sink. -/
def flush (session : Session τ) : Doing τ Unit :=
  let (fault?, sink) := session.sink.flush
  let session :=
    { session with sink, transcript := session.transcript.push (.flush session.parser.tokens) }
  match fault? with
  | none => (.ok (), session)
  | some fault => (.error fault, session)

/-- Ask for input if the session is interactive. -/
def prompt (session : Session τ) : Doing τ Unit :=
  if session.interactive then (session.write promptText).andThen fun _ session => session.flush
  else (.ok (), session)

@[simp] theorem parser_write (text : String) (session : Session τ) :
    (session.write text).2.parser = session.parser := by
  unfold write; dsimp only; split <;> rfl

@[simp] theorem parser_flush (session : Session τ) :
    session.flush.2.parser = session.parser := by
  unfold flush; dsimp only; split <;> rfl

@[simp] theorem parser_prompt (session : Session τ) :
    session.prompt.2.parser = session.parser := by
  unfold prompt
  split
  · exact (Doing.read_andThen (·.parser) fun _ asked => parser_flush asked).trans
      (parser_write promptText session)
  · rfl

variable [TokenSource τ]

/-- Pass the token at hand. -/
def advance (session : Session τ) : Session τ := session.resume session.parser.advance

/-- Prompt and read the first token. -/
def start (session : Session τ) : Doing τ Unit :=
  session.prompt.andThen fun _ session => (.ok (), session.advance)

/-- Read an item and answer it, unless the input has ended. -/
def answer (session : Session τ) : Doing τ (Option Reply) :=
  match session.parser.item? with
  | (none, rest) => (.ok none, session.resume rest)
  | (some ⟨kind, .ok item⟩, rest) =>
    ((session.resume rest).write (announcement kind)).andThen fun _ session =>
      (.ok (some (.parsed item)), session)
  | (some ⟨_, .error error⟩, rest) =>
    ((session.resume rest).write (complaint error)).andThen fun _ session =>
      (.ok (some (.rejected error)), session)

/-- Get ready for the next item: pass the token behind an error, then prompt. -/
def proceed (reply : Reply) (session : Session τ) : Doing τ Unit :=
  match reply with
  | .parsed _ => session.prompt
  | .rejected _ => session.advance.prompt

/-- Answer an item and get ready for the next. -/
def turn (session : Session τ) : Doing τ (Option Reply) :=
  session.answer.andThen fun reply? session =>
    match reply? with
    | none => (.ok none, session)
    | some reply => (session.proceed reply).andThen fun _ session => (.ok (some reply), session)

/-- Answering uses up tokens once the token behind an error has been passed. -/
theorem answer_size_lt {session next : Session τ} {reply : Reply}
    (answered : session.answer = (.ok (some reply), next)) :
    match reply with
    | .parsed _ => next.parser.size < session.parser.size
    | .rejected _ => next.parser.advance.size < session.parser.size := by
  unfold answer at answered
  split at answered
  · simp at answered
  · next kind item rest read =>
    obtain ⟨_, said, written, answered⟩ := Doing.andThen_eq_ok_iff.mp answered
    have same := parser_write (announcement kind) (session.resume rest)
    rw [written] at same
    cases answered
    dsimp only
    rw [same]
    exact (Parser.item?_size_lt read : rest.size < session.parser.size)
  · next error rest read =>
    obtain ⟨_, said, written, answered⟩ := Doing.andThen_eq_ok_iff.mp answered
    have same := parser_write (complaint error) (session.resume rest)
    rw [written] at same
    cases answered
    dsimp only
    rw [same]
    exact (Parser.item?_size_advance_lt read : rest.advance.size < session.parser.size)

/-- A turn that answers an item uses up tokens. -/
theorem turn_size_lt {session next : Session τ} {reply : Reply}
    (turned : session.turn = (.ok (some reply), next)) :
    next.parser.size < session.parser.size := by
  obtain ⟨reply?, said, answered, turned⟩ := Doing.andThen_eq_ok_iff.mp turned
  cases reply? with
  | none => simp at turned
  | some found =>
    obtain ⟨_, asked, proceeded, turned⟩ := Doing.andThen_eq_ok_iff.mp turned
    cases turned
    have smaller := answer_size_lt answered
    cases reply with
    | parsed item =>
      have same := parser_prompt said
      rw [show said.prompt = (.ok _, next) from proceeded] at same
      rw [same]
      exact smaller
    | rejected error =>
      have same := parser_prompt said.advance
      rw [show said.advance.prompt = (.ok _, next) from proceeded] at same
      rw [same]
      exact smaller

/-- Take turns, after those already reported, until the input ends or the sink refuses. -/
def takeTurns (report : Report) (session : Session τ) : Doing τ Report :=
  match _ : session.turn with
  | (.ok none, next) =>
    (.ok report, next.record (.finished report.items.size report.errors.size))
  | (.ok (some reply), next) => takeTurns (report.add reply) next
  | (.error fault, next) => (.error fault, next)
termination_by session.parser.size
decreasing_by exact turn_size_lt ‹_›

/-- Run a session over a sink, with a new transcript. -/
def run (sink : Sink) (session : Session τ) : Doing τ Report :=
  ({ session with sink, transcript := #[] } : Session τ).start.andThen fun _ session =>
    session.takeTurns .empty

end Session

end OpLang
