/-! Sequential code as a tree of requests to its environment. The tree fixes
what the code asks for and how it goes on after each answer; the meaning of a
request is given separately, so one program text can be run alone, be
interleaved with others, or be checked against a protocol. -/

set_option autoImplicit false

/-- The requests of a programming interface, each with the type of its answer. -/
structure Signature where
  Request : Type
  Response : Request → Type

inductive Program (S : Signature) (α : Type) where
  | done (value : α)
  | call (request : S.Request) (next : S.Response request → Program S α)

namespace Program

variable {S : Signature} {α β γ : Type}

def bind (program : Program S α) (next : α → Program S β) : Program S β :=
  match program with
  | .done value => next value
  | .call request rest => .call request fun response => (rest response).bind next

instance : Monad (Program S) where
  pure := .done
  bind := bind

/-- Issue one request and return its answer. -/
def perform (request : S.Request) : Program S (S.Response request) :=
  .call request .done

@[simp] theorem pure_eq (value : α) : (pure value : Program S α) = .done value := rfl

@[simp] theorem done_bind (value : α) (next : α → Program S β) :
    (Program.done value >>= next) = next value := rfl

@[simp] theorem call_bind (request : S.Request)
    (rest : S.Response request → Program S α) (next : α → Program S β) :
    (Program.call request rest >>= next) =
      .call request fun response => rest response >>= next := rfl

@[simp] theorem map_done (f : α → β) (value : α) :
    (f <$> (Program.done value : Program S α)) = .done (f value) := rfl

theorem bind_assoc (program : Program S α) (first : α → Program S β)
    (second : β → Program S γ) :
    (program >>= first) >>= second = program >>= fun value => first value >>= second := by
  induction program with
  | done value => rfl
  | call request rest ih =>
      simp only [call_bind]
      congr 1
      funext response
      exact ih response

/-! ## Running a program alone -/

/-- Run against a handler that answers each request from its own state. -/
def execute {State : Type} (handle : State → (request : S.Request) →
    Option (S.Response request × State)) : Program S α → State → Option (α × State)
  | .done value, state => some (value, state)
  | .call request next, state =>
      match handle state request with
      | none => none
      | some (response, after) => execute handle (next response) after

/-- The values a program may return when each request is answered by any of its
admissible responses. -/
def Returns (admissible : (request : S.Request) → S.Response request → Prop) :
    Program S α → α → Prop
  | .done value, result => result = value
  | .call request next, result =>
      ∃ response, admissible request response ∧ Returns admissible (next response) result

/-- On every branch the program makes at most `count` requests. -/
def Within : Program S α → Nat → Prop
  | .done _, _ => True
  | .call _ _, 0 => False
  | .call _ next, count + 1 => ∀ response, Within (next response) count

theorem Within.mono {program : Program S α} {count more : Nat} (within : program.Within count)
    (fewer : count ≤ more) : program.Within more := by
  induction program generalizing count more with
  | done value => trivial
  | call request next ih =>
      cases count with
      | zero => exact within.elim
      | succ count =>
          cases more with
          | zero => cases fewer
          | succ more => exact fun response => ih response (within response) (by omega)

theorem within_bind {program : Program S α} {next : α → Program S β} {first second : Nat}
    (within : program.Within first) (later : ∀ value, (next value).Within second) :
    (program >>= next).Within (first + second) := by
  induction program generalizing first with
  | done value => exact (later value).mono (by omega)
  | call request rest ih =>
      cases first with
      | zero => exact within.elim
      | succ first =>
          rw [Nat.succ_add]
          exact fun response => ih response (within response)

section

variable {State : Type}
  {handle : State → (request : S.Request) → Option (S.Response request × State)}
  {admissible : (request : S.Request) → S.Response request → Prop}

@[simp] theorem execute_done (value : α) (state : State) :
    execute handle (.done value) state = some (value, state) := rfl

theorem execute_call {request : S.Request} {next : S.Response request → Program S α}
    {state after : State} {response : S.Response request}
    (handled : handle state request = some (response, after)) :
    execute handle (.call request next) state = execute handle (next response) after := by
  simp [execute, handled]

theorem execute_perform {request : S.Request} {next : S.Response request → Program S α}
    {state after : State} {response : S.Response request}
    (handled : handle state request = some (response, after)) :
    execute handle (perform request >>= next) state = execute handle (next response) after :=
  execute_call handled

theorem execute_bind (program : Program S α) (next : α → Program S β) (state : State) :
    execute handle (program >>= next) state =
      (execute handle program state).bind fun result =>
        execute handle (next result.1) result.2 := by
  induction program generalizing state with
  | done value => rfl
  | call request rest ih =>
      simp only [call_bind, execute]
      cases handle state request with
      | none => rfl
      | some answered => exact ih answered.1 answered.2

/-- Handlers that agree under a view of the state run a program alike. -/
theorem execute_view {View : Type} (view : State → View)
    {handleView : View → (request : S.Request) → Option (S.Response request × View)}
    (agree : ∀ state request, (handle state request).map (fun answer => (answer.1, view answer.2)) =
      handleView (view state) request) (program : Program S α) (state : State) :
    (execute handle program state).map (fun result => (result.1, view result.2)) =
      execute handleView program (view state) := by
  induction program generalizing state with
  | done value => rfl
  | call request next ih =>
      have viewed := agree state request
      simp only [execute]
      cases handled : handle state request with
      | none =>
          rw [handled] at viewed
          rw [← viewed]
          rfl
      | some answered =>
          rw [handled] at viewed
          rw [← viewed]
          exact ih answered.1 answered.2

@[simp] theorem returns_done {value result : α} :
    Returns admissible (Program.done value : Program S α) result ↔ result = value := Iff.rfl

@[simp] theorem returns_call {request : S.Request} {next : S.Response request → Program S α}
    {result : α} :
    Returns admissible (.call request next) result ↔
      ∃ response, admissible request response ∧ Returns admissible (next response) result :=
  Iff.rfl

end

end Program

/-! ## Protocols -/

/-- What a client may ask for, kept in a history-dependent stage: which requests
are permitted there, which answers the environment may give, and the stage
after an answer. -/
structure Protocol (S : Signature) (Stage : Type) where
  permits : Stage → S.Request → Prop
  answers : Stage → (request : S.Request) → S.Response request → Prop
  after : Stage → (request : S.Request) → S.Response request → Stage

namespace Protocol

variable {S : Signature} {Stage : Type} {α β : Type} (protocol : Protocol S Stage)

/-- Along every branch the program asks only for what the protocol permits, and
when it returns the stage and the value satisfy `final`. -/
def Conforms (final : Stage → α → Prop) : Stage → Program S α → Prop
  | stage, .done value => final stage value
  | stage, .call request next =>
      protocol.permits stage request ∧
        ∀ response, protocol.answers stage request response →
          Conforms final (protocol.after stage request response) (next response)

variable {protocol} {final : Stage → α → Prop} {stage : Stage}

@[simp] theorem conforms_done {value : α} :
    protocol.Conforms final stage (.done value) ↔ final stage value := Iff.rfl

@[simp] theorem conforms_call {request : S.Request}
    {next : S.Response request → Program S α} :
    protocol.Conforms final stage (.call request next) ↔
      protocol.permits stage request ∧
        ∀ response, protocol.answers stage request response →
          protocol.Conforms final (protocol.after stage request response) (next response) :=
  Iff.rfl

theorem Conforms.mono {weaker : Stage → α → Prop} {program : Program S α}
    (conforms : protocol.Conforms final stage program)
    (implies : ∀ {stage value}, final stage value → weaker stage value) :
    protocol.Conforms weaker stage program := by
  induction program generalizing stage with
  | done value => exact implies conforms
  | call request next ih =>
      exact ⟨conforms.1, fun response answered => ih response (conforms.2 response answered)⟩

/-- Sequential composition: the second part starts in whatever stage and with
whatever value the first part ends. -/
theorem conforms_bind {program : Program S α} {next : α → Program S β}
    {final : Stage → β → Prop} :
    protocol.Conforms final stage (program >>= next) ↔
      protocol.Conforms (fun stage value => protocol.Conforms final stage (next value))
        stage program := by
  induction program generalizing stage with
  | done value => exact Iff.rfl
  | call request rest ih =>
      simp only [Program.call_bind, conforms_call]
      exact and_congr_right fun _ =>
        forall_congr' fun response => forall_congr' fun _ => ih response

end Protocol
