import Lox.Proofs.Relabel.Lines

/-!
Contract: the code of a session.

Owns: `Known`: the functions of a session consist of tokens that it has read, and their
nodes have numbers that it has given out. Whatever is asked for keeps this.
-/

namespace Lox

/-- The tokens of a source text. -/
def Token.From (source : String) (token : Token) : Prop :=
  token ∈ Source.tokens (Source.scan source)

/-- The tokens of the source texts of requests. -/
def Token.FromAny (requests : List Request) (token : Token) : Prop :=
  ∃ request ∈ requests, token.From request.source

/-- The numbers of a unit, and its tokens, which may be on other lines. -/
theorem AcceptedUnit.within {source : String} {firstId next : Nat} {program : List Statement}
    {table : Scope.Locals} (unit : AcceptedUnit source firstId program table next) (lines : Nat) :
    Statement.AllWithin
      (.moved lines (Token.From source) fun id => firstId ≤ id ∧ id < next) program := by
  have genuine : Statement.AllGenuine (Token.From source) program :=
    (readUnit_reads unit.read).genuine fun _ member => List.takeWhile_subset _ member
  exact Statement.AllGenuine.within genuine unit.numbered.inside

namespace Relabelled

/-- Code as it was read: of older tokens, and with numbers below a bound. -/
def AsRead (older : Token → Prop) (bound : Nat) (labels : Relabelling) : Prop :=
  ∃ among numbered, labels = .moved 0 among numbered ∧ (∀ token, among token → older token) ∧
    ∀ id, numbered id → id < bound

theorem AsRead.unmoved {older : Token → Prop} {bound : Nat} {labels : Relabelling}
    (read : AsRead older bound labels) : ∃ among numbered, labels = .moved 0 among numbered := by
  obtain ⟨among, numbered, same, _⟩ := read
  exact ⟨among, numbered, same⟩

/-- Machines whose code is as it was read, with tables that agree about it. -/
def asRead (older : Token → Prop) (bound : Nat) (table other : Scope.Locals)
    (agree : ∀ id < bound, other[id]? = table[id]?) : Likeness where
  origins := AsRead older bound
  table := table
  other := other
  outputs := Eq
  agree := by
    rintro _ ⟨among, numbered, rfl, _, below⟩ id here
    exact agree id (below id here)
  print := print_of_eq

/-- The functions of a session consist of older tokens, and their nodes have numbers that the
session has given out. -/
def Known (older : Token → Prop) (session : Session) : Prop :=
  MachineAlike
    (asRead older session.nextId session.machine.locals session.machine.locals fun _ _ => rfl)
    session.machine session.machine

variable {older newer : Token → Prop} {session : Session}

theorem AsRead.widen {bound next : Nat} {labels : Relabelling} (read : AsRead older bound labels)
    (tokens : ∀ token, older token → newer token) (ordered : bound ≤ next) :
    AsRead newer next labels := by
  obtain ⟨among, numbered, same, old, below⟩ := read
  exact ⟨among, numbered, same, fun token member => tokens token (old token member),
    fun id here => Nat.lt_of_lt_of_le (below id here) ordered⟩

/-- More may be read, more numbers given out, and tables may come in. -/
theorem Known.widen (known : Known older session) (tokens : ∀ token, older token → newer token)
    {next : Nat} (ordered : session.nextId ≤ next) (table : Scope.Locals) :
    Known newer ⟨{ session.machine with locals := table }, next⟩ := by
  refine MachineAlike.widen (fun labels read => ?_) known fun _ _ same => same
  exact AsRead.widen read tokens ordered

theorem Known.mono (known : Known older session)
    (tokens : ∀ token, older token → newer token) : Known newer session :=
  known.widen tokens (Nat.le_refl _) session.machine.locals

/-- Only the provided functions are there at first. -/
theorem MachineAlike.start {likeness : Likeness} (table : likeness.table = ∅)
    (other : likeness.other = ∅) (outputs : ∀ output, likeness.outputs output output)
    (output : Output) (time : Nat → Float) :
    MachineAlike likeness (Machine.start output time) (Machine.start output time) := by
  refine ⟨rfl, fun _ => rfl, fun frame name => ?_, rfl, fun _ => .none, rfl, rfl, rfl, rfl,
    table.symm, other.symm, outputs _, rfl⟩
  show Option.Rel _ (((Frames.empty.push none).define 0 _ _).lookup? frame name)
    (((Frames.empty.push none).define 0 _ _).lookup? frame name)
  by_cases here : frame = 0 ∧ name = Native.clock.name
  · obtain ⟨rfl, rfl⟩ := here
    rw [Frames.lookup?_define_self _ Nat.zero_lt_one]
    exact .some (.native .clock)
  · rw [Frames.lookup?_define_of_ne _ _ here, Frames.lookup?_push]
    exact .none

theorem Known.start (output : Output) (time : Nat → Float) :
    Known (fun _ => False) (Session.start output time) :=
  MachineAlike.start rfl rfl (fun _ => rfl) output time

/-! ### Units that end alike -/

/-- Outcomes that are the same, up to the token of an error. -/
inductive OutcomeAlike (likeness : Likeness) : Outcome → Outcome → Prop where
  | finished : OutcomeAlike likeness .finished .finished
  | failed {token other : Token} (fault : Evaluation.RuntimeFault) :
      TokenAlike likeness token other →
      OutcomeAlike likeness (.failed ⟨token, fault⟩) (.failed ⟨other, fault⟩)
  | outOfFuel : OutcomeAlike likeness .outOfFuel .outOfFuel

/-- Outcomes that are alike are the same, if no code has been moved. -/
theorem OutcomeAlike.eq_of_unmoved {likeness : Likeness}
    (unmoved : ∀ labels, likeness.origins labels →
      ∃ among numbered, labels = .moved 0 among numbered)
    {outcome other : Outcome} (alike : OutcomeAlike likeness outcome other) : other = outcome := by
  cases alike with
  | finished | outOfFuel => rfl
  | failed fault tokens =>
      obtain ⟨labels, origin, _, rfl⟩ := tokens
      obtain ⟨among, numbered, rfl⟩ := unmoved labels origin
      rfl

/-- Two units end alike, on machines that are alike. -/
structure EndsAlike (likeness : Likeness) (ended other : Outcome × Session) : Prop where
  outcome : OutcomeAlike likeness ended.1 other.1
  machine : MachineAlike likeness ended.2.machine other.2.machine

variable {likeness : Likeness} {labels : Relabelling}

/-- Relabelled programs end alike. -/
theorem execute_endsAlike (session other : Session)
    (alike : MachineAlike likeness session.machine other.machine)
    (origin : likeness.origins labels) (fuel : Nat) {program : List Statement}
    (within : Statement.AllWithin labels program) :
    EndsAlike likeness (session.execute fuel program)
      (other.execute fuel (Statement.relabelAll labels program)) := by
  have agree : Agree likeness Eq (Evaluation.interpret fuel program session.machine)
      (Evaluation.interpret fuel (Statement.relabelAll labels program) other.machine) := by
    have runs := executeAll_mirrors (invoke_mirrors fuel) origin fuel program within
    exact runs.bind (fun _ _ _ => Mirrors.pure rfl) _ _ alike
  unfold Session.execute
  generalize Evaluation.interpret fuel program session.machine = result,
    Evaluation.interpret fuel (Statement.relabelAll labels program) other.machine = expected
    at agree ⊢
  cases result with
  | ok =>
      cases expected with
      | ok => exact ⟨.finished, agree.2⟩
      | error => exact agree.elim
  | error =>
      cases expected with
      | ok => exact agree.elim
      | error =>
          cases agree.1 with
          | fault fault tokens => exact ⟨.failed fault tokens, agree.2⟩
          | outOfFuel => exact ⟨.outOfFuel, agree.2⟩

/-! ### Requests -/

/-- A unit that is accepted ends alike with any table that says the same about it, and about
everything before it. -/
theorem Known.endsAlike (known : Known older session) {source : String}
    {program : List Statement} {table other : Scope.Locals} {next : Nat}
    (unit : AcceptedUnit source session.nextId program table next)
    (agree : ∀ id < next, other[id]? = (session.machine.addLocals table).locals[id]?)
    (fuel further : Nat) :
    EndsAlike
      (asRead (fun token => older token ∨ token.From source) next
        (session.machine.addLocals table).locals other agree)
      (Session.execute fuel program ⟨session.machine.addLocals table, next⟩)
      (Session.execute fuel program ⟨{ session.machine with locals := other }, further⟩) := by
  have wider : ∀ labels, AsRead older session.nextId labels →
      AsRead (fun token => older token ∨ token.From source) next labels :=
    fun _ read => read.widen (fun _ => Or.inl) unit.numbered.ordered
  have entered : MachineAlike
      (asRead (fun token => older token ∨ token.From source) next
        (session.machine.addLocals table).locals other agree)
      (session.machine.addLocals table) { session.machine with locals := other } :=
    MachineAlike.widen wider known fun _ _ same => same
  have origin : AsRead (fun token => older token ∨ token.From source) next
      (.moved 0 (Token.From source) fun id => session.nextId ≤ id ∧ id < next) :=
    ⟨_, _, rfl, fun _ => Or.inr, fun _ inside => inside.2⟩
  have ended := execute_endsAlike ⟨_, next⟩ ⟨_, further⟩ entered origin fuel (unit.within 0)
  rw [Statement.relabelAll_moved_zero] at ended
  exact ended

/-- A table matters only by what it says about known code. With any other table that says the
same, the program of a unit ends in the same way, and only the table is another. -/
theorem Known.execute_eq (known : Known older session) {source : String}
    {program : List Statement} {table other : Scope.Locals} {next : Nat}
    (unit : AcceptedUnit source session.nextId program table next)
    (agree : ∀ id < next, other[id]? = (session.machine.addLocals table).locals[id]?)
    (fuel further : Nat) :
    let ended := Session.execute fuel program ⟨session.machine.addLocals table, next⟩
    Session.execute fuel program ⟨{ session.machine with locals := other }, further⟩ =
      (ended.1, ⟨{ ended.2.machine with locals := other }, further⟩) := by
  intro ended
  obtain ⟨outcomes, machines⟩ := known.endsAlike unit agree fuel further
  have outcome := outcomes.eq_of_unmoved fun _ read => AsRead.unmoved read
  have machine := machines.eq_of_unmoved (fun _ read => AsRead.unmoved read) rfl
  have number :=
    Session.execute_nextId ⟨{ session.machine with locals := other }, further⟩ fuel program
  generalize Session.execute fuel program ⟨{ session.machine with locals := other }, further⟩ =
    another at outcome machine number ⊢
  obtain ⟨_, _, _⟩ := another
  cases outcome
  cases machine
  cases number
  rfl

/-- A unit that is accepted brings in its tokens and its numbers. -/
theorem Known.execute (known : Known older session) {source : String} {program : List Statement}
    {table : Scope.Locals} {next : Nat}
    (unit : AcceptedUnit source session.nextId program table next) (fuel : Nat) :
    Known (fun token => older token ∨ token.From source)
      (Session.execute fuel program ⟨session.machine.addLocals table, next⟩).2 := by
  have ended := (known.endsAlike unit (fun _ _ => rfl) fuel next).machine
  have numbers := Session.execute_nextId ⟨session.machine.addLocals table, next⟩ fuel program
  refine ended.widen (fun labels read => ?_) fun _ _ same => same
  exact AsRead.widen read (fun _ => id) (Nat.le_of_eq numbers.symm)

theorem Known.serve (known : Known older session) (request : Request) :
    Known (fun token => older token ∨ token.From request.source) (session.serve request).2 := by
  cases request with
  | parse source =>
      exact known.widen (fun _ => Or.inl) (readUnit_nextId source session.nextId) _
  | run fuel source =>
      show Known _ (session.run fuel source).2
      rcases session.run_cases source with ⟨_, next, ordered, refused⟩ | ⟨_, _, _, unit⟩
      · rw [refused]
        exact known.widen (fun _ => Or.inl) ordered _
      · rw [Session.run_of_accepted unit]
        exact known.execute unit fuel

/-- By induction on the requests. -/
theorem Known.serveAll (known : Known older session) (requests : List Request) :
    Known (fun token => older token ∨ token.FromAny requests) (session.serveAll requests).2 := by
  induction requests generalizing older session with
  | nil => exact known.mono fun _ => Or.inl
  | cons request requests inductionHypothesis =>
      refine (inductionHypothesis (known.serve request)).mono fun token read => ?_
      rcases read with (old | here) | ⟨other, member, there⟩
      · exact Or.inl old
      · exact Or.inr ⟨request, List.mem_cons_self, here⟩
      · exact Or.inr ⟨other, List.mem_cons_of_mem _ member, there⟩

end Relabelled

end Lox
