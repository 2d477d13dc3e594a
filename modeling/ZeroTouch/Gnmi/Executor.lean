import ZeroTouch.Gnmi.Command
import ZeroTouch.Gnmi.Reply
import ZeroTouch.Transport
/-!
# Calls, and the gnmi executor

The command layer reaches the world only through functions it is handed:
the allowlist, the tokenizer, the session lookup, the gNMI backend, the
classic engine and the transport. Each may answer differently every time
it is asked, so each carries the world's state `σ` along, and what the
layer does is the list of calls it makes. `GnmiExecutor::handle` asks the
session lookup first, whatever the command is, and then makes at most one
call of the backend.
-/

namespace ZeroTouch

/-- `Access`. -/
inductive Access
  | none
  | viewer
  | admin
  deriving DecidableEq, Repr

/-- A call the command layer makes of what it is handed, with the answer
where the layer's next move depends on it. -/
inductive Call
  | allow (sender : Text) (answer : Bool)
  | tokenize (text : Text) (answer : List Text)
  | auth (sender : Text) (answer : Access)
  | get (xpaths : List Text)
  | set (updates : List (Text × Text))
  | fallback (sender text : Text)
  | send (recipient text : Text)
  deriving DecidableEq, Repr

/-- A computation over the world that records the calls it makes. -/
abbrev Traced (σ α : Type) : Type := StateM (σ × List Call) α

/-- Make one call: run `f` on the world, and record `c` of its answer. -/
def call {σ α : Type} (c : α → Call) (f : σ → α × σ) : Traced σ α := fun w =>
  ((f w.1).1, (f w.1).2, w.2 ++ [c (f w.1).1])

section Traced

variable {σ α β : Type}

@[simp] theorem traced_pure (a : α) (w : σ × List Call) :
    (pure a : Traced σ α) w = (a, w) := rfl

@[simp] theorem traced_bind (x : Traced σ α) (f : α → Traced σ β) (w : σ × List Call) :
    (x >>= f) w = f (x w).1 (x w).2 := rfl

@[simp] theorem call_calls (c : α → Call) (f : σ → α × σ) (w : σ × List Call) :
    (call c f w).2.2 = w.2 ++ [c (f w.1).1] := rfl

end Traced

/-- `GnmiSink`: the backend, over the world. -/
structure GnmiSink (σ : Type) where
  get : List Text → σ → GnmiResult × σ
  set : List (Text × Text) → σ → GnmiResult × σ

/-- `GnmiExecutor`: the backend and the session lookup, which may be
unset. -/
structure GnmiExecutor (σ : Type) where
  sink : GnmiSink σ
  auth : Option (Text → σ → Access × σ)

namespace GnmiExecutor

variable {σ : Type} (E : GnmiExecutor σ)

/-- The access the sender holds now; none where no lookup is wired. -/
def access (sender : Text) : Traced σ Access :=
  match E.auth with
  | some auth => call (.auth sender) (auth sender)
  | .none => pure .none

/-- **`GnmiExecutor::handle`.** -/
def handle (cmd : GnmiCommand) (sender : Text) : Traced σ Text := do
  let access ← E.access sender
  match cmd.kind with
  | .notGnmi => return []
  | .unknown => return clampSms ("ERR ".toList ++ cmd.error)
  | .get =>
    if access = .none then
      return clampSms "ERR GNMI GET login required".toList
    let r ← call (fun _ => .get cmd.xpaths) (E.sink.get cmd.xpaths)
    return formatGet r
  | .set =>
    if access ≠ .admin then
      return clampSms "ERR GNMI SET admin login required".toList
    let r ← call (fun _ => .set cmd.updates) (E.sink.set cmd.updates)
    return formatSet r cmd.updates.length

/-! ## What one command can call -/

/-- The session lookup, as a trace: the access `acc` found, and the call
that found it where a lookup is wired. -/
inductive AuthTrace (sender : Text) : Access → List Call → Prop
  | unset : AuthTrace sender .none []
  | asked (acc : Access) : AuthTrace sender acc [.auth sender acc]

/-- The backend call a command makes at an access level. -/
inductive SinkTrace (cmd : GnmiCommand) (acc : Access) : List Call → Prop
  | none : SinkTrace cmd acc []
  | get : cmd.kind = .get → acc ≠ .none → SinkTrace cmd acc [.get cmd.xpaths]
  | set : cmd.kind = .set → acc = .admin → SinkTrace cmd acc [.set cmd.updates]

theorem access_trace (sender : Text) (w : σ × List Call) :
    ∃ U, AuthTrace sender (E.access sender w).1 U ∧ (E.access sender w).2.2 = w.2 ++ U := by
  unfold access
  cases E.auth with
  | none => exact ⟨[], .unset, (List.append_nil _).symm⟩
  | some auth => exact ⟨_, .asked _, rfl⟩

/-- **What `handle` can do.** It asks the session lookup, then calls the
backend at most once and only as the access found allows. -/
theorem handle_trace (cmd : GnmiCommand) (sender : Text) (w : σ × List Call) :
    ∃ acc U K, AuthTrace sender acc U ∧ SinkTrace cmd acc K ∧
      (E.handle cmd sender w).2.2 = w.2 ++ (U ++ K) := by
  obtain ⟨U, hU, hacc⟩ := E.access_trace sender w
  refine ⟨(E.access sender w).1, U, ?_⟩
  -- the access found decides the branch, and each branch makes its own call
  unfold handle
  rw [traced_bind]
  cases hk : cmd.kind with
  | notGnmi => exact ⟨[], hU, .none, by simpa using hacc⟩
  | unknown => exact ⟨[], hU, .none, by simpa using hacc⟩
  | get =>
    by_cases ha : (E.access sender w).1 = .none
    · exact ⟨[], hU, .none, by simpa [ha] using hacc⟩
    · exact ⟨_, hU, .get hk ha, by simp [ha, hacc]⟩
  | set =>
    by_cases ha : (E.access sender w).1 = .admin
    · exact ⟨_, hU, .set hk ha, by simp [ha, hacc]⟩
    · exact ⟨[], hU, .none, by simpa [ha] using hacc⟩

end GnmiExecutor

end ZeroTouch
