import Lox.Proofs.Frames

/-!
Contract: the frames that bind `this`.

Owns:
- `Frames.Receiver`: how far out of a frame `this` is bound, and to which instance;
- `Frames.Keep`: frames come in, but the old ones keep their parents and what `this` is in them;
- `Frames.Sealed`: a frame that binds `this` binds it to an instance, and binds nothing else.

A receiver depends on the parents of old frames and on `this` alone, so it is the same in all
stores that keep them.
-/

namespace Lox

namespace Frames

/-- What `this` is in a frame. -/
def this? (frames : Frames) (frame : Nat) : Option Value :=
  frames.lookup? frame Keyword.this.spelling

/-- Make a frame in which `this` is an instance. -/
def pushThis (frames : Frames) (parent id : Nat) : Frames :=
  (frames.push (some parent)).define frames.size Keyword.this.spelling (.instance id)

/-- `frames.Receiver frame distance receiver`: as seen from a frame, `this` is an instance, in a
frame so many frames out, or it is not bound at all. -/
inductive Receiver (frames : Frames) : Nat → Option Nat → Option Nat → Prop where
  | here {frame id : Nat} : frames.this? frame = some (.instance id) →
      Receiver frames frame (some 0) (some id)
  | outer {frame parent : Nat} {distance receiver : Option Nat} :
      frames.this? frame = none → frames.parent? frame = some parent →
      Receiver frames parent distance receiver →
      Receiver frames frame (distance.map (· + 1)) receiver
  | absent {frame : Nat} : frames.this? frame = none → frames.parent? frame = none →
      Receiver frames frame none none

/-- Old frames keep their parents and what `this` is in them. -/
structure Keep (before after : Frames) : Prop where
  size : before.size ≤ after.size
  parent : ∀ frame < before.size, after.parent? frame = before.parent? frame
  this : ∀ frame < before.size, after.this? frame = before.this? frame

/-- A frame that binds `this` binds it to an instance, and nothing else. -/
def Sealed (frames : Frames) : Prop :=
  ∀ frame value, frames.this? frame = some value →
    (∃ id, value = .instance id) ∧
      ∀ name, name ≠ Keyword.this.spelling → frames.lookup? frame name = none

/-! ### Receivers -/

namespace Receiver

variable {frames before after : Frames} {frame : Nat} {distance receiver : Option Nat}

/-- There is at most one receiver. By induction on the frames around the first one. -/
theorem unique (first : frames.Receiver frame distance receiver) {distance' receiver' : Option Nat}
    (second : frames.Receiver frame distance' receiver') :
    distance = distance' ∧ receiver = receiver' := by
  induction first generalizing distance' receiver' with
  | here bound =>
      cases second with
      | here also =>
          cases bound.symm.trans also
          exact ⟨rfl, rfl⟩
      | outer free | absent free => cases bound.symm.trans free
  | outer free around _ inductionHypothesis =>
      cases second with
      | here bound => cases bound.symm.trans free
      | outer _ also further =>
          cases around.symm.trans also
          obtain ⟨rfl, rfl⟩ := inductionHypothesis further
          exact ⟨rfl, rfl⟩
      | absent _ outermost => cases around.symm.trans outermost
  | absent free outermost =>
      cases second with
      | here bound => cases bound.symm.trans free
      | outer _ around => cases around.symm.trans outermost
      | absent => exact ⟨rfl, rfl⟩

/-- The receiver is what `this` is at its distance. -/
theorem getAt? (seen : frames.Receiver frame distance receiver) {out : Nat}
    (far : distance = some out) :
    ∃ id, receiver = some id ∧
      frames.getAt? frame out Keyword.this.spelling = some (.instance id) := by
  induction seen generalizing out with
  | here bound =>
      cases far
      exact ⟨_, rfl, bound⟩
  | outer _ around _ inductionHypothesis =>
      obtain ⟨nearer, near, rfl⟩ := Option.map_eq_some_iff.mp far
      obtain ⟨id, same, found⟩ := inductionHypothesis near
      refine ⟨id, same, ?_⟩
      unfold Frames.getAt? Frames.ancestor?
      rw [around]
      exact found
  | absent => cases far

/-- Frames that come in later do not matter. By induction on the frames around the first one,
which are older than it. -/
theorem keep (seen : before.Receiver frame distance receiver) (kept : before.Keep after)
    (inside : frame < before.size) : after.Receiver frame distance receiver := by
  induction seen with
  | here bound => exact .here ((kept.this _ inside).trans bound)
  | outer free around _ inductionHypothesis =>
      exact .outer ((kept.this _ inside).trans free) ((kept.parent _ inside).trans around)
        (inductionHypothesis (Nat.lt_trans (before.parent?_lt around) inside))
  | absent free outermost =>
      exact .absent ((kept.this _ inside).trans free) ((kept.parent _ inside).trans outermost)

end Receiver

/-! ### What is kept -/

namespace Keep

variable {before between after : Frames}

theorem refl (frames : Frames) : frames.Keep frames :=
  ⟨Nat.le_refl _, fun _ _ => rfl, fun _ _ => rfl⟩

theorem trans (first : before.Keep between) (second : between.Keep after) : before.Keep after where
  size := Nat.le_trans first.size second.size
  parent frame inside :=
    (second.parent frame (Nat.lt_of_lt_of_le inside first.size)).trans (first.parent frame inside)
  this frame inside :=
    (second.this frame (Nat.lt_of_lt_of_le inside first.size)).trans (first.this frame inside)

theorem push (frames : Frames) (parent : Option Nat) : frames.Keep (frames.push parent) where
  size := by rw [size_push]; exact Nat.le_succ _
  parent _ inside := frames.parent?_push_of_ne parent (Nat.ne_of_lt inside)
  this frame _ := frames.lookup?_push parent frame _

/-- Names other than `this` may be bound anywhere. -/
theorem define (frames : Frames) (frame : Nat) {name : String}
    (other : name ≠ Keyword.this.spelling) (value : Value) : frames.Keep (frames.define frame name value) where
  size := Nat.le_of_eq (frames.size_define frame name value).symm
  parent _ _ := frames.parent?_define frame name value _
  this _ _ := frames.lookup?_define_of_ne value fun both => other both.2.symm

theorem pushThis (frames : Frames) (parent id : Nat) : frames.Keep (frames.pushThis parent id) where
  size := by
    rw [Frames.pushThis, size_define, size_push]
    exact Nat.le_succ _
  parent frame inside := by
    rw [Frames.pushThis, parent?_define, parent?_push_of_ne _ _ (Nat.ne_of_lt inside)]
  this frame inside := by
    rw [this?, Frames.pushThis, lookup?_define_of_ne _ _ fun both => Nat.ne_of_lt inside both.1,
      lookup?_push]
    rfl

end Keep

theorem this?_pushThis (frames : Frames) (parent id : Nat) :
    (frames.pushThis parent id).this? frames.size = some (.instance id) := by
  refine lookup?_define_self _ ?_ _ _
  rw [size_push]
  exact Nat.lt_succ_self _

theorem parent?_pushThis (frames : Frames) {parent : Nat} (older : parent < frames.size)
    (id : Nat) : (frames.pushThis parent id).parent? frames.size = some parent := by
  rw [pushThis, parent?_define, parent?_push_self _ older]

/-! ### Frames that bind nothing but `this` -/

namespace Sealed

variable {frames : Frames}

theorem push (whole : frames.Sealed) (parent : Option Nat) : (frames.push parent).Sealed := by
  intro frame value bound
  rw [this?, lookup?_push] at bound
  obtain ⟨isInstance, free⟩ := whole frame value bound
  exact ⟨isInstance, fun name other => (lookup?_push ..).trans (free name other)⟩

/-- Another name may be bound in a frame that does not bind `this`. -/
theorem define (whole : frames.Sealed) {frame : Nat} (clear : frames.this? frame = none)
    {name : String} (other : name ≠ Keyword.this.spelling) (value : Value) :
    (frames.define frame name value).Sealed := by
  intro found bound here
  rw [this?, lookup?_define_of_ne _ _ fun both => other both.2.symm] at here
  obtain ⟨isInstance, free⟩ := whole found bound here
  refine ⟨isInstance, fun different otherThan => ?_⟩
  have apart : found ≠ frame := by
    rintro rfl
    cases clear.symm.trans here
  rw [lookup?_define_of_ne _ _ fun both => apart both.1]
  exact free different otherThan

theorem pushThis (whole : frames.Sealed) (parent id : Nat) :
    (frames.pushThis parent id).Sealed := by
  intro frame value bound
  by_cases new : frame = frames.size
  · subst new
    cases (frames.this?_pushThis parent id).symm.trans bound
    refine ⟨⟨id, rfl⟩, fun name other => ?_⟩
    rw [Frames.pushThis, lookup?_define_of_ne _ _ fun both => other both.2, lookup?_push,
      lookup?_of_size_le _ (Nat.le_refl _)]
  · have same : ∀ name, (frames.pushThis parent id).lookup? frame name =
        frames.lookup? frame name := fun name => by
      rw [Frames.pushThis, lookup?_define_of_ne _ _ fun both => new both.1, lookup?_push]
    rw [this?, same] at bound
    obtain ⟨isInstance, free⟩ := whole frame value bound
    exact ⟨isInstance, fun name other => (same name).trans (free name other)⟩

/-- What such a frame looks like. -/
theorem frame? (whole : frames.Sealed) {frame parent id : Nat}
    (bound : frames.this? frame = some (.instance id))
    (around : frames.parent? frame = some parent) :
    frames.frame? frame =
      some ⟨(∅ : Bindings Value).insert Keyword.this.spelling (.instance id), some parent⟩ := by
  have free := (whole frame _ bound).2
  unfold this? lookup? at bound
  unfold lookup? at free
  unfold parent? at around
  obtain ⟨⟨bindings, outer⟩, entry, here⟩ := Option.bind_eq_some_iff.mp bound
  rw [entry] at around free ⊢
  obtain rfl : outer = some parent := around
  refine congrArg (fun bindings => some (Frame.mk bindings (some parent))) ?_
  refine Std.ExtTreeMap.ext_getElem? fun name => ?_
  rw [Std.ExtTreeMap.getElem?_insert]
  by_cases same : name = Keyword.this.spelling
  · subst same
    simpa using here
  · have differ : compare Keyword.this.spelling name ≠ .eq := fun equal =>
      same (Std.LawfulEqCmp.eq_of_compare equal).symm
    rw [if_neg differ, Std.ExtTreeMap.getElem?_empty]
    exact free name same

end Sealed

end Frames

end Lox
