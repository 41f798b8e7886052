import Telemetry.Dictionary
import Telemetry.Error

/-!
# Builders

A builder gathers a draft by calls and makes something out of it once. The first attempt to make it consumes
the builder, whether it succeeds or not.

All builders work alike. What is particular to a class of builders are its calls, what each of them makes of
the draft, and what a factory is given of the draft in the end.

## Main definitions

* `Builder`: a draft, which may be consumed
* `BuilderM`: what happens on a builder; what has been changed before a failure stays changed
* `BuilderM.change`, `BuilderM.handOver`: a draft that is changed, and a draft that is handed over
* `BuilderM.attempt`: the attempt to make something by a factory, which may have effects
* `Builder.change`, `Builder.build`: the builder after a change, and the attempt without effects
* `Builder.checkFields`: the test of the names of fields that are set
* `BuilderClass`: a class of builders
* `BuilderClass.perform`, `BuilderClass.call`, `BuilderClass.attempt`: its calls, and the attempt

## Main results

* `BuilderM.run_change`, `BuilderM.run_handOver`: what is left of a builder
* `Builder.change_eq`, `Builder.build_eq`: the builder after a change, and the attempt
-/

namespace Telemetry

/-- **A draft of something**, known in messages by a title. -/
structure Builder (δ : Type) where
  title : String
  draft : δ
  consumed : Bool

/-- **What happens on a builder.** What has been changed before a failure stays changed. -/
abbrev BuilderM (δ : Type) : Type → Type :=
  EStateM Error (Builder δ)

variable {α β δ κ : Type} {m : Type → Type}

namespace Builder

def new (title : String) (draft : δ) : Builder δ :=
  ⟨title, draft, false⟩

def consumedError (b : Builder δ) : Error :=
  .builder (.consumed b.title)

/-- The names of fields that are set: one of them stands for the builder itself and cannot be given. -/
def checkFields (owner : String) (names : List String) : Except Error Unit :=
  if names.contains "self" then .error (.argument (.repeatedArgument (owner ++ ".set") "self"))
  else .ok ()

/-- Names are given if none of them stands for the builder itself. -/
theorem checkFields_eq_ok_iff {owner : String} {names : List String} :
    checkFields owner names = .ok () ↔ "self" ∉ names := by
  unfold checkFields
  split
  · next h => exact ⟨nofun, fun hself => absurd (List.contains_iff_mem.1 h) hself⟩
  · next h => exact ⟨fun _ hself => h (List.contains_iff_mem.2 hself), fun _ => rfl⟩

end Builder

namespace BuilderM

def refuseConsumed : BuilderM δ Unit := do
  let b ← get
  if b.consumed then throw b.consumedError

/-- **A draft that is changed.** -/
def change (f : δ → Except Error δ) : BuilderM δ Unit := do
  refuseConsumed
  let draft ← MonadExcept.ofExcept (f (← get).draft)
  modify fun b => { b with draft := draft }

/-- **A draft that is handed over**, which consumes the builder first. -/
def handOver (arguments : δ → Except Error α) : BuilderM δ α := do
  refuseConsumed
  modify fun b => { b with consumed := true }
  MonadExcept.ofExcept (arguments (← get).draft)

/-- **The attempt to make something**: a factory is given what is handed over. -/
def attempt [Monad m] (arguments : δ → Except Error α) (factory : α → m (Except Error β)) (b : Builder δ) :
    m (Except Error β × Builder δ) :=
  match (handOver arguments).run b with
  | .ok given b' => do return (← factory given, b')
  | .error e b' => return (.error e, b')

theorem run_refuseConsumed (b : Builder δ) :
    refuseConsumed.run b = if b.consumed then .error b.consumedError b else .ok () b := by
  unfold refuseConsumed
  cases h : b.consumed <;> simp [h]

theorem run_ofExcept (x : Except Error α) (b : Builder δ) :
    (MonadExcept.ofExcept x : BuilderM δ α).run b = match x with
      | .ok a => .ok a b
      | .error e => .error e b := by
  cases x <;> rfl

theorem run_change (f : δ → Except Error δ) (b : Builder δ) :
    (change f).run b =
      if b.consumed then .error b.consumedError b
      else match f b.draft with
        | .ok draft => .ok () { b with draft := draft }
        | .error e => .error e b := by
  unfold change
  rw [EStateM.run_bind, run_refuseConsumed]
  cases h : b.consumed <;> cases hf : f b.draft <;> simp [h, hf, run_ofExcept]

/-- What is handed over, and what is left of a builder. -/
theorem run_handOver (arguments : δ → Except Error α) (b : Builder δ) :
    (handOver arguments).run b =
      if b.consumed then .error b.consumedError b
      else match arguments b.draft with
        | .ok given => .ok given { b with consumed := true }
        | .error e => .error e { b with consumed := true } := by
  unfold handOver
  rw [EStateM.run_bind, run_refuseConsumed]
  cases h : b.consumed <;> simp [run_ofExcept]

end BuilderM

namespace Builder

/-- **The builder after a change of the draft.** -/
def change (b : Builder δ) (f : δ → Except Error δ) : Except Error (Builder δ) :=
  match (BuilderM.change f).run b with
  | .ok () b' => .ok b'
  | .error e _ => .error e

/-- **The attempt to make something out of the draft**, without other effects. -/
def build (make : δ → Except Error β) (b : Builder δ) : Except Error β × Builder δ :=
  Id.run (BuilderM.attempt .ok (fun draft => pure (make draft)) b)

theorem change_eq (b : Builder δ) (f : δ → Except Error δ) :
    b.change f =
      if b.consumed then .error b.consumedError
      else do
        let draft ← f b.draft
        return { b with draft := draft } := by
  unfold change
  rw [BuilderM.run_change]
  cases b.consumed <;> cases f b.draft <;> rfl

theorem build_eq (make : δ → Except Error β) (b : Builder δ) :
    b.build make =
      if b.consumed then (.error b.consumedError, b)
      else (make b.draft, { b with consumed := true }) := by
  unfold build BuilderM.attempt
  rw [BuilderM.run_handOver]
  cases b.consumed <;> rfl

end Builder

/-- **A class of builders**: the names of the fields that a call sets, what a call makes of the draft, and what a
factory is given of the draft. Names of fields are checked on behalf of an owner. -/
structure BuilderClass (δ κ α : Type) where
  owner : String
  names : κ → List String
  change : κ → δ → Except Error δ
  arguments : δ → Except Error α

namespace BuilderClass

/-- **A call.** Names that cannot be given are refused before anything else. -/
def perform (C : BuilderClass δ κ α) (call : κ) : BuilderM δ Unit := do
  MonadExcept.ofExcept (Builder.checkFields C.owner (C.names call))
  BuilderM.change (C.change call)

def call (C : BuilderClass δ κ α) (b : Builder δ) (call : κ) : Except Error (Builder δ) :=
  match (C.perform call).run b with
  | .ok () b' => .ok b'
  | .error e _ => .error e

/-- **The attempt to make something** of what the draft gives to a factory. -/
def attempt [Monad m] (C : BuilderClass δ κ α) (factory : α → m (Except Error β)) (b : Builder δ) :
    m (Except Error β × Builder δ) :=
  BuilderM.attempt C.arguments factory b

theorem run_perform (C : BuilderClass δ κ α) (call : κ) (b : Builder δ) :
    (C.perform call).run b = match Builder.checkFields C.owner (C.names call) with
      | .ok () => (BuilderM.change (C.change call)).run b
      | .error e => .error e b := by
  unfold perform
  rw [EStateM.run_bind, BuilderM.run_ofExcept]
  cases Builder.checkFields C.owner (C.names call) <;> rfl

theorem call_eq (C : BuilderClass δ κ α) (b : Builder δ) (call : κ) :
    C.call b call =
      Builder.checkFields C.owner (C.names call) >>= fun _ => b.change (C.change call) := by
  unfold BuilderClass.call
  rw [run_perform]
  cases Builder.checkFields C.owner (C.names call) <;> rfl

/-- The attempt by a factory without effects. -/
theorem attempt_pure (C : BuilderClass δ κ α) (factory : α → Except Error β) (b : Builder δ) :
    Id.run (C.attempt (fun given => pure (factory given)) b) =
      b.build fun draft => C.arguments draft >>= factory := by
  unfold attempt BuilderM.attempt
  rw [BuilderM.run_handOver, Builder.build_eq]
  cases b.consumed with
  | true => rfl
  | false => cases C.arguments b.draft <;> rfl

end BuilderClass

end Telemetry
