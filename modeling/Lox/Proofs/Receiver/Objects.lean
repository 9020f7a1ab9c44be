import Lox.Proofs.Receiver.Steps

/-!
Contract: how functions, classes and frames come to be on intact machines.

Owns:
- `Scene`: a machine on which code is run for a receiver, which its current frame leads to;
- that functions, classes and bound methods are known when they are made;
- that the frame of a call leads to the receiver of its function.
-/

namespace Lox.Evaluation

variable {units : Point → Prop} {machine : Machine}

/-- A machine on which code is run for a receiver, which is so many frames out. The current frame
is not one that binds `this`. -/
structure Scene (units : Point → Prop) (machine : Machine) (distance receiver : Option Nat) :
    Prop where
  intact : Intact units machine
  inside : machine.environment < machine.frames.size
  clear : machine.frames.this? machine.environment = none
  seen : machine.frames.Receiver machine.environment distance receiver

/-- The scene is the same behind a part. -/
theorem Scene.behind {distance receiver : Option Nat} {later : Machine}
    (scene : Scene units machine distance receiver) (after : After units machine later) :
    Scene units later distance receiver := by
  refine ⟨after.intact, ?_, ?_, ?_⟩ <;> rw [after.environment]
  · exact Nat.lt_of_lt_of_le scene.inside after.kept.frames.size
  · exact (after.kept.frames.this _ scene.inside).trans scene.clear
  · exact scene.seen.keep after.kept.frames scene.inside

/-- A new frame inside the current one is one frame further away from the receiver. -/
theorem Scene.opened {distance receiver : Option Nat}
    (scene : Scene units machine distance receiver) :
    Scene units
      { machine with
        frames := machine.frames.push (some machine.environment)
        environment := machine.frames.size }
      (distance.map (· + 1)) receiver := by
  have clear : (machine.frames.push (some machine.environment)).this? machine.frames.size =
      none :=
    (machine.frames.lookup?_push ..).trans (machine.frames.lookup?_of_size_le (Nat.le_refl _) _)
  refine ⟨(scene.intact.push _).congr rfl rfl fun _ _ same => same, ?_, clear, ?_⟩
  · show machine.frames.size < (machine.frames.push (some machine.environment)).size
    rw [Frames.size_push]
    exact Nat.lt_succ_self _
  · exact .outer clear (machine.frames.parent?_push_self scene.inside)
      (scene.seen.keep (.push _ _) scene.inside)

theorem define_ends {distance receiver : Option Nat} (scene : Scene units machine distance receiver)
    {name : Token} {value : Value} (plain : name.Plain) (known : ValueKnown units machine value) :
    Ends units machine anything (define name.lexeme value machine) :=
  defineIn_ends scene.intact scene.clear plain known

/-! ### Functions and classes -/

/-- A counter advances. -/
theorem after_identity (intact : Intact units machine) :
    After units machine { machine with nextIdentity := machine.nextIdentity + 1 } :=
  ⟨intact.congr rfl rfl fun _ _ same => same, .ofEq rfl rfl, rfl⟩

/-- A function is made for the receiver of the code that declares it. -/
theorem functionValue_ends {distance receiver : Option Nat} {fuel : Nat}
    {declaration : FunctionDeclaration}
    (runs : RunsFor units ⟨fuel, .statement (.function declaration), machine⟩ receiver)
    (scene : Scene units machine distance receiver)
    (fits : Statement.FunctionThisAt machine.Distances distance declaration) :
    Ends units machine (ValueKnown units) (functionValue declaration machine) := by
  have after := after_identity scene.intact
  have known : FunctionKnown units machine
      ⟨machine.nextIdentity, declaration, machine.environment, false⟩ receiver :=
    ⟨.declared runs rfl, scene.inside, ⟨distance, scene.seen, fits⟩, nofun⟩
  exact ⟨after, receiver, known.later after.kept⟩

/-- Methods are kept by their names. By induction on the declarations, with the methods that are
made already. -/
theorem makeMethods_ends {declarations : List FunctionDeclaration} (intact : Intact units machine)
    (inside : machine.environment < machine.frames.size)
    (fits : Statement.FunctionsThisAt machine.Distances (some 0) declarations) :
    Ends units machine (fun later methods => ∀ (name : String) method,
      methods[name]? = some method → MethodKnown later name method)
      (makeMethods declarations machine) := by
  unfold makeMethods
  show Ends units machine _ ((declarations.foldlM _ ∅ : Eval _) machine)
  generalize machine.environment = closure at inside ⊢
  have none : ∀ (name : String) method, (∅ : Bindings FunctionValue)[name]? = some method →
      MethodKnown machine name method := by
    intro name method present
    rw [Std.ExtTreeMap.getElem?_empty] at present
    cases present
  generalize (∅ : Bindings FunctionValue) = methods at none ⊢
  induction declarations generalizing machine methods with
  | nil => exact ⟨.refl intact, none⟩
  | cons declaration rest inductionHypothesis =>
      have after := after_identity intact
      refine Ends.since after (inductionHypothesis after.intact fits.2 inside _ ?_)
      intro name method present
      rw [Std.ExtTreeMap.getElem?_insert] at present
      split at present
      case isTrue same =>
          cases present
          exact ⟨Std.LawfulEqCmp.eq_of_compare same, inside, fits.1, rfl⟩
      case isFalse => exact (none name method present).later after.kept

theorem classValue_ends {name : Token} {methods : List FunctionDeclaration}
    (intact : Intact units machine) (inside : machine.environment < machine.frames.size)
    (fits : Statement.FunctionsThisAt machine.Distances (some 0) methods) :
    Ends units machine (ValueKnown units) (classValue name methods machine) := by
  refine (makeMethods_ends intact inside fits).bind fun made later _ after known => ?_
  have next := after_identity after.intact
  exact ⟨next, ClassKnown.later known next.kept⟩

/-! ### Bound methods -/

/-- A method that is bound closes over a frame in which `this` is its instance. -/
theorem bindMethod_ends {name : String} {method : FunctionValue} {id : Nat}
    (intact : Intact units machine) (known : MethodKnown machine name method)
    (isBound : ∀ function later, bindMethod method id machine = .ok function later →
      IsBound units method id function) :
    Ends units machine (fun later function => FunctionKnown units later function (some id))
      (bindMethod method id machine) := by
  have pushed := intact.pushThis method.closure id
  have here := machine.frames.this?_pushThis method.closure id
  refine ⟨⟨pushed.congr rfl rfl fun _ _ same => same, ⟨.pushThis _ _ _, fun _ _ same => same⟩, rfl⟩,
    .bound (isBound _ _ rfl), ?_, ⟨some 0, .here here, known.code⟩, fun _ => ⟨id, here⟩⟩
  show machine.frames.size < (machine.frames.pushThis method.closure id).size
  rw [Frames.pushThis, Frames.size_define, Frames.size_push]
  exact Nat.lt_succ_self _

/-- The initializer of a class comes bound to a new instance when the class is called. -/
theorem initializer_known {fuel : Nat} {owner : ClassValue} {method bound : FunctionValue}
    {paren : Token} {arguments : List Value} {id : Nat} {middle later : Machine}
    (visited : Visited units ⟨fuel, .application (.class owner) paren arguments, machine⟩)
    (intact : Intact units machine) (known : ClassKnown machine owner)
    (matching : owner.arity = arguments.length) (present : owner.initializer? = some method)
    (made : makeInstance owner machine = .ok id middle)
    (binds : bindMethod method id middle = .ok bound later) :
    IsBound units method id bound ∧ After units machine later ∧
      FunctionKnown units later bound (some id) := by
  obtain ⟨after, _⟩ := (makeInstance_ends intact known).ok made
  have isBound (function : FunctionValue) (last : Machine)
      (binds : bindMethod method id middle = .ok function last) :
      IsBound units method id function :=
    ⟨_, middle, last, visited, .initializer matching present made, binds⟩
  obtain ⟨further, bound⟩ :=
    (bindMethod_ends after.intact ((known _ method present).later after.kept) isBound).ok binds
  exact ⟨isBound _ _ binds, after.trans further, bound⟩

/-- What an instance has is known, and its methods come bound to it. -/
theorem property_ends {id : Nat} {name : Token} (intact : Intact units machine)
    (isBound : ∀ target method function later, machine.instances[id]? = some target →
      target.fields[name.lexeme]? = none → target.owner.methods[name.lexeme]? = some method →
      bindMethod method id machine = .ok function later → IsBound units method id function) :
    Ends units machine (ValueKnown units) (property id name machine) := by
  unfold property
  rw [get_bind]
  cases field : (machine.instances[id]?).bind (·.fields[name.lexeme]?) with
  | some value =>
      obtain ⟨target, present, has⟩ := Option.bind_eq_some_iff.mp field
      exact ⟨.refl intact, intact.field id target _ value present has⟩
  | none =>
      refine ((Yields.require _ _ fun method found => found).ends intact).bind ?_
      rintro method later _ _ ⟨rfl, found⟩
      obtain ⟨target, present, has⟩ := Option.bind_eq_some_iff.mp found
      rw [present] at field
      have known := intact.owner id target present _ method has
      refine (bindMethod_ends intact known fun function later bound =>
        isBound target method function later present field has bound).bind ?_
      exact fun function later _ after known => ⟨.refl after.intact, some id, known⟩

/-! ### Calls -/

/-- Parameters are bound in a frame that does not bind `this`. -/
theorem bindParameters_ends {frame : Nat} {pairs : List (Token × Value)}
    (intact : Intact units machine) (clear : machine.frames.this? frame = none)
    (inside : frame < machine.frames.size)
    (known : ∀ pair ∈ pairs, pair.1.Plain ∧ ValueKnown units machine pair.2) :
    Ends units machine anything ((pairs.forM fun (parameter, argument) =>
      defineIn frame parameter.lexeme argument : Eval Unit) machine) := by
  induction pairs generalizing machine with
  | nil => exact ⟨.refl intact, trivial⟩
  | cons pair pairs inductionHypothesis =>
      obtain ⟨⟨plain, isKnown⟩, others⟩ := List.forall_mem_cons.mp known
      refine (defineIn_ends intact clear plain isKnown).bind fun _ later _ after _ => ?_
      exact inductionHypothesis after.intact ((after.kept.frames.this _ inside).trans clear)
        (Nat.lt_of_lt_of_le inside after.kept.frames.size)
        fun pair member => ⟨(others pair member).1, (others pair member).2.later after.kept⟩

/-- The frame of a call leads to the frame that its function closes over. -/
theorem openFrame_leads {function : FunctionValue} {arguments : List Value}
    (intact : Intact units machine) (closed : function.closure < machine.frames.size)
    (plain : ∀ parameter ∈ function.declaration.parameters, parameter.Plain)
    (known : ∀ argument ∈ arguments, ValueKnown units machine argument) :
    Ends units machine (fun later frame => frame < later.frames.size ∧
      later.frames.this? frame = none ∧ later.frames.parent? frame = some function.closure)
      (openFrame function arguments machine) := by
  have pushed := intact.push (some function.closure)
  have clear : (machine.frames.push (some function.closure)).this? machine.frames.size = none :=
    (machine.frames.lookup?_push ..).trans (machine.frames.lookup?_of_size_le (Nat.le_refl _) _)
  have inside : machine.frames.size < (machine.frames.push (some function.closure)).size := by
    rw [Frames.size_push]
    exact Nat.lt_succ_self _
  have kept := Kept.ofFrames (.push machine.frames (some function.closure))
  refine Ends.since ⟨pushed, kept, rfl⟩
    ((bindParameters_ends pushed clear inside fun pair member => ?_).bind
      fun _ later _ after _ => ⟨.refl after.intact, ?_, ?_, ?_⟩)
  · obtain ⟨isParameter, isArgument⟩ := List.of_mem_zip member
    exact ⟨plain _ isParameter, (known _ isArgument).later kept⟩
  · exact Nat.lt_of_lt_of_le inside after.kept.frames.size
  · exact (after.kept.frames.this _ inside).trans clear
  · exact (after.kept.frames.parent _ inside).trans (machine.frames.parent?_push_self closed)

/-- A call yields what its body has returned, or the instance of an initializer. -/
theorem callResult_ends {function : FunctionValue} {completion : Completion}
    (intact : Intact units machine) (known : CompletionKnown units machine completion) :
    Ends units machine (ValueKnown units) (callResult function completion machine) := by
  unfold callResult
  split
  · refine ⟨.refl intact, ?_⟩
    cases here : machine.frames.lookup? function.closure Keyword.this.spelling with
    | none => trivial
    | some value => exact intact.bound _ _ _ here
  · cases completion with
    | normal => exact ⟨.refl intact, trivial⟩
    | returned value => exact ⟨.refl intact, known⟩

/-! ### Frames and calls that end -/

theorem CompletionKnown.later {before after : Machine} {completion : Completion}
    (known : CompletionKnown units before completion) (kept : Kept before after) :
    CompletionKnown units after completion := by
  cases completion with
  | normal => trivial
  | returned value => exact ValueKnown.later known kept

section Nested

variable {computation : Eval Completion}

/-- A frame is left however the computation in it has ended. -/
theorem within_goes {frame : Nat}
    (ends : Ends units { machine with environment := frame } (CompletionKnown units)
      (computation { machine with environment := frame })) :
    Goes units machine (CompletionKnown units) (computation { machine with environment := frame })
      (within frame computation machine) := by
  unfold within
  dsimp only
  generalize computation { machine with environment := frame } = result at ends ⊢
  cases result with
  | ok value last =>
      obtain ⟨⟨intact, kept, _⟩, known⟩ := ends
      have back : Kept last { last with environment := machine.environment } := .ofEq rfl rfl
      exact ⟨⟨⟨intact.congr rfl rfl back.locals, ⟨kept.frames, kept.locals⟩, rfl⟩,
        known.later back⟩, back⟩
  | error halt last =>
      obtain ⟨intact, kept, _⟩ := ends
      have back : Kept last { last with environment := machine.environment } := .ofEq rfl rfl
      exact ⟨⟨intact.congr rfl rfl back.locals, ⟨kept.frames, kept.locals⟩, rfl⟩, back⟩

/-- A call is over however the computation in it has ended. -/
theorem deeper_goes
    (ends : Ends units { machine with depth := machine.depth + 1 } (CompletionKnown units)
      (computation { machine with depth := machine.depth + 1 })) :
    Goes units machine (CompletionKnown units)
      (computation { machine with depth := machine.depth + 1 }) (deeper computation machine) := by
  unfold deeper
  generalize computation { machine with depth := machine.depth + 1 } = result at ends ⊢
  cases result with
  | ok value last =>
      obtain ⟨⟨intact, kept, same⟩, known⟩ := ends
      have back : Kept last { last with depth := last.depth - 1 } := .ofEq rfl rfl
      exact ⟨⟨⟨intact.congr rfl rfl back.locals, ⟨kept.frames, kept.locals⟩, same⟩,
        known.later back⟩, back⟩
  | error halt last =>
      obtain ⟨intact, kept, same⟩ := ends
      have back : Kept last { last with depth := last.depth - 1 } := .ofEq rfl rfl
      exact ⟨⟨intact.congr rfl rfl back.locals, ⟨kept.frames, kept.locals⟩, same⟩, back⟩

/-- The body of a function is run in a frame of its own, one call deeper. -/
theorem deeper_within_goes {frame : Nat}
    (ends : Ends units { machine with depth := machine.depth + 1, environment := frame }
      (CompletionKnown units)
      (computation { machine with depth := machine.depth + 1, environment := frame })) :
    Goes units machine (CompletionKnown units)
      (computation { machine with depth := machine.depth + 1, environment := frame })
      (deeper (within frame computation) machine) := by
  have inner : Goes units { machine with depth := machine.depth + 1 } (CompletionKnown units)
      (computation { machine with depth := machine.depth + 1, environment := frame })
      (within frame computation { machine with depth := machine.depth + 1 }) :=
    within_goes ends
  have outer := deeper_goes inner.1
  exact ⟨outer.1, inner.2.trans outer.2⟩

end Nested

end Lox.Evaluation
