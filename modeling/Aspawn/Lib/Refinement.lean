import Aspawn.Lib.Program

/-! Code that keeps its data in a state of its own, against code that has them in its requests.
The state is handed to the environment with each request and comes back with the answer: the
environment finds in it what is asked for and leaves in it what it answers. -/

set_option autoImplicit false

/-- The interface of code that lets go of its state with each request. -/
abbrev Signature.sharing (S : Signature) (Own : Type) : Signature where
  Request := S.Request × Own
  Response request := S.Response request.1 × Own

/-- A request and its answer. -/
abbrev Signature.Exchange (S : Signature) := (request : S.Request) × S.Response request

namespace Program

variable {S : Signature} {α : Type}

theorem bind_done (program : Program S α) : program >>= .done = program := by
  induction program with
  | done value => rfl
  | call request next ih =>
      rw [call_bind]
      congr 1
      funext response
      exact ih response

/-- The program makes these exchanges, and `rest` is what it goes on with. -/
inductive Follows : Program S α → List S.Exchange → Program S α → Prop where
  | nil {program : Program S α} : Follows program [] program
  | cons {request : S.Request} {next : S.Response request → Program S α}
      {response : S.Response request} {exchanges : List S.Exchange} {rest : Program S α} :
      Follows (next response) exchanges rest →
      Follows (.call request next) (⟨request, response⟩ :: exchanges) rest

theorem Follows.append {program middle rest : Program S α} {first second : List S.Exchange}
    (follows : program.Follows first middle) (further : middle.Follows second rest) :
    program.Follows (first ++ second) rest := by
  induction follows with
  | nil => exact further
  | cons _ ih => exact .cons (ih further)

theorem Follows.bind {β : Type} {program rest : Program S α} {exchanges : List S.Exchange}
    {next : α → Program S β} (follows : program.Follows exchanges rest) :
    (program >>= next).Follows exchanges (rest >>= next) := by
  induction follows with
  | nil => exact .nil
  | cons _ ih => exact .cons ih

/-- Run in an environment that answers each request in one way; with the exchanges. -/
def serve (respond : (request : S.Request) → S.Response request) :
    Program S α → List S.Exchange × α
  | .done value => ([], value)
  | .call request next =>
      let (exchanges, value) := (next (respond request)).serve respond
      (⟨request, respond request⟩ :: exchanges, value)

variable {respond : (request : S.Request) → S.Response request}

theorem follows_serve (program : Program S α) :
    program.Follows (program.serve respond).1 (.done (program.serve respond).2) := by
  induction program with
  | done value => exact .nil
  | call request next ih => exact .cons (ih (respond request))

theorem follows_serve_of_fst {β : Type} {program : Program S (α × β)} {value : α}
    (returns : (program.serve respond).2.1 = value) :
    program.Follows (program.serve respond).1 (.done (value, (program.serve respond).2.2)) := by
  rw [← returns]
  exact follows_serve program

theorem eq_respond_of_mem_serve {program : Program S α} {exchange : S.Exchange}
    (member : exchange ∈ (program.serve respond).1) : exchange.2 = respond exchange.1 := by
  induction program with
  | done value => cases member
  | call request next ih =>
      cases member with
      | head => rfl
      | tail _ later => exact ih (respond request) later

section Maintains

variable {S : Signature} {Own : Type} {α β : Type}

/-- Whatever the environment answers lawfully, as long as it keeps `holds` the program does. -/
def Maintains (lawful : (ask : S.Request) → Own → S.Response ask → Own → Prop)
    (holds : Own → Prop) : Program (S.sharing Own) (α × Own) → Prop
  | .done (_, own) => holds own
  | .call (ask, own) next =>
      holds own ∧ ∀ answer later, lawful ask own answer later → holds later →
        Maintains lawful holds (next (answer, later))

variable {lawful : (ask : S.Request) → Own → S.Response ask → Own → Prop} {holds : Own → Prop}

theorem maintains_bind {first : Program (S.sharing Own) (α × Own)}
    {next : α × Own → Program (S.sharing Own) (β × Own)}
    (maintains : first.Maintains lawful holds)
    (further : ∀ value own, holds own → (next (value, own)).Maintains lawful holds) :
    (first >>= next).Maintains lawful holds := by
  induction first with
  | done result => exact further result.1 result.2 maintains
  | call asked remaining ih =>
      refine ⟨maintains.1, fun answer later answers kept => ?_⟩
      exact ih (answer, later) (maintains.2 answer later answers kept)

/-- What a program maintains holds of every request, and what is left goes on maintaining it. -/
theorem Maintains.follows {program rest : Program (S.sharing Own) (α × Own)}
    {exchanges : List (S.sharing Own).Exchange} (maintains : program.Maintains lawful holds)
    (made : program.Follows exchanges rest)
    (kept : ∀ exchange ∈ exchanges,
      lawful exchange.1.1 exchange.1.2 exchange.2.1 exchange.2.2 ∧
        (holds exchange.1.2 → holds exchange.2.2)) :
    (∀ exchange ∈ exchanges, holds exchange.1.2) ∧ rest.Maintains lawful holds := by
  induction made with
  | nil => exact ⟨fun _ member => absurd member List.not_mem_nil, maintains⟩
  | @cons asked next response exchanges rest _ ih =>
      obtain ⟨answers, keeps⟩ := kept _ List.mem_cons_self
      obtain ⟨held, left⟩ := ih (maintains.2 response.1 response.2 answers (keeps maintains.1))
        fun exchange member => kept exchange (.tail _ member)
      refine ⟨fun exchange member => ?_, left⟩
      cases member with
      | head => exact maintains.1
      | tail _ among => exact held exchange among

end Maintains

end Program

/-- How the requests of code with a state of its own, below, stand for those of code without,
above. The stage is what the exchanges above have come to. -/
structure Coupling (S T : Signature) (Own Stage : Type) where
  /-- What the environment may answer, and what it may have made of the state meanwhile. -/
  lawful : (ask : S.Request) → Own → S.Response ask → Own → Prop
  /-- The request above that the environment finds below. -/
  asks : Stage → S.Request → Own → T.Request → Prop
  /-- The answer above that the environment leaves below. -/
  answers : (ask : S.Request) → Own → S.Response ask → Own →
    (request : T.Request) → T.Response request → Prop
  /-- A request above that only concerns the state, which answers it. -/
  settles : Own → (request : T.Request) → T.Response request → Prop
  after : Stage → (request : T.Request) → T.Response request → Stage

namespace Coupling

variable {S T : Signature} {Own Stage : Type} {α β γ : Type}

section

variable (coupling : Coupling S T Own Stage)

/-- The state answers one request above after the other. -/
def Serves (own : Own) : Stage → List T.Exchange → Stage → Prop
  | stage, [], last => stage = last
  | stage, ⟨request, response⟩ :: rest, last =>
      coupling.settles own request response ∧
        Serves own (coupling.after stage request response) rest last

/-- The exchanges above are those below, with what the state has answered in between. -/
inductive Matched : Stage → List (S.sharing Own).Exchange → List T.Exchange → Stage → Prop where
  | nil {stage : Stage} : Matched stage [] [] stage
  | cons {stage now last : Stage} {ask : S.Request} {own later : Own} {answer : S.Response ask}
      {request : T.Request} {response : T.Response request}
      {below : List (S.sharing Own).Exchange} {served above : List T.Exchange} :
      coupling.Serves own stage served now →
      coupling.asks now ask own request →
      coupling.answers ask own answer later request response →
      Matched (coupling.after now request response) below above last →
      Matched stage (⟨(ask, own), (answer, later)⟩ :: below)
        (served ++ ⟨request, response⟩ :: above) last

/-- Whatever the environment lawfully answers, the program below asks for what the program
above asks for, and when it returns `final` holds of what is left above. -/
def Refines (final : Stage → Own → α → Program T β → Prop) :
    Stage → Program (S.sharing Own) (α × Own) → Program T β → Prop
  | stage, .done (value, own), above => final stage own value above
  | stage, .call (ask, own) next, above =>
      ∃ served now request rest, above.Follows served (.call request rest) ∧
        coupling.Serves own stage served now ∧ coupling.asks now ask own request ∧
        ∀ answer later, coupling.lawful ask own answer later →
          ∃ response, coupling.answers ask own answer later request response ∧
            Refines final (coupling.after now request response) (next (answer, later))
              (rest response)

end

variable {coupling : Coupling S T Own Stage} {stage : Stage} {own : Own} {ask : S.Request}
  {request : T.Request} {final : Stage → Own → α → Program T β → Prop}

theorem refines_call {next : S.Response ask × Own → Program (S.sharing Own) (α × Own)}
    {rest : T.Response request → Program T β} (asks : coupling.asks stage ask own request)
    (answered : ∀ answer later, coupling.lawful ask own answer later →
      ∃ response, coupling.answers ask own answer later request response ∧
        coupling.Refines final (coupling.after stage request response) (next (answer, later))
          (rest response)) :
    coupling.Refines final stage (.call (ask, own) next) (.call request rest) :=
  ⟨[], stage, request, rest, .nil, rfl, asks, answered⟩

/-- Before the next request below, the state answers one above. -/
theorem refines_settled {below : Program (S.sharing Own) (α × Own)}
    {next : S.Response ask × Own → Program (S.sharing Own) (α × Own)}
    {rest : T.Response request → Program T β} (response : T.Response request)
    (asking : below = .call (ask, own) next) (settles : coupling.settles own request response)
    (refines : coupling.Refines final (coupling.after stage request response) below
      (rest response)) :
    coupling.Refines final stage below (.call request rest) := by
  subst asking
  obtain ⟨served, now, later, remaining, follows, serves, found⟩ := refines
  exact ⟨⟨request, response⟩ :: served, now, later, remaining, .cons follows,
    ⟨settles, serves⟩, found⟩

/-- Two parts one after the other, below and above. -/
theorem refines_seq {δ : Type} {middle : Stage → Own → α → Program T γ → Prop}
    {last : Stage → Own → β → Program T δ → Prop} {first : Program (S.sharing Own) (α × Own)}
    {next : α × Own → Program (S.sharing Own) (β × Own)} {above : Program T γ}
    {nextAbove : γ → Program T δ} (refines : coupling.Refines middle stage first above)
    (further : ∀ {stage own value rest}, middle stage own value rest →
      coupling.Refines last stage (next (value, own)) (rest >>= nextAbove)) :
    coupling.Refines last stage (first >>= next) (above >>= nextAbove) := by
  induction first generalizing stage above with
  | done result => exact further refines
  | call asked remaining ih =>
      obtain ⟨served, now, request, rest, follows, serves, asks, answered⟩ := refines
      refine ⟨served, now, request, _, follows.bind, serves, asks, fun answer later lawful => ?_⟩
      obtain ⟨response, answers, refinesNext⟩ := answered answer later lawful
      exact ⟨response, answers, ih (answer, later) refinesNext⟩

/-- The second part below goes on with what the first part has left above. -/
theorem refines_bind {middle : Stage → Own → α → Program T γ → Prop}
    {last : Stage → Own → β → Program T γ → Prop} {first : Program (S.sharing Own) (α × Own)}
    {next : α × Own → Program (S.sharing Own) (β × Own)} {above : Program T γ}
    (refines : coupling.Refines middle stage first above)
    (further : ∀ {stage own value rest}, middle stage own value rest →
      coupling.Refines last stage (next (value, own)) rest) :
    coupling.Refines last stage (first >>= next) above := by
  rw [← Program.bind_done above]
  refine refines_seq refines ?_
  intro stage own value rest left
  rw [Program.bind_done]
  exact further left

/-- Every lawful run below is a run above, exchange by exchange. -/
theorem Refines.follows {below : Program (S.sharing Own) (α × Own)} {above : Program T β}
    {exchanges : List (S.sharing Own).Exchange} {value : α}
    (refines : coupling.Refines final stage below above)
    (made : below.Follows exchanges (.done (value, own)))
    (lawful : ∀ exchange ∈ exchanges, coupling.lawful exchange.1.1 exchange.1.2 exchange.2.1
      exchange.2.2) :
    ∃ matching rest last, above.Follows matching rest ∧
      coupling.Matched stage exchanges matching last ∧ final last own value rest := by
  induction exchanges generalizing stage below above with
  | nil =>
      cases made
      exact ⟨[], above, stage, .nil, .nil, refines⟩
  | cons exchange exchanges ih =>
      cases made with
      | @cons asked next response _ _ further =>
          obtain ⟨answer, later⟩ := response
          obtain ⟨served, now, request, rest, follows, serves, asks, answered⟩ := refines
          obtain ⟨response, answers, refinesNext⟩ :=
            answered answer later (lawful _ List.mem_cons_self)
          obtain ⟨matching, remaining, last, followsNext, matched, holds⟩ :=
            ih refinesNext further fun exchange member => lawful exchange (.tail _ member)
          exact ⟨served ++ ⟨request, response⟩ :: matching, remaining, last,
            follows.append (.cons followsNext), .cons serves asks answers matched, holds⟩

end Coupling
