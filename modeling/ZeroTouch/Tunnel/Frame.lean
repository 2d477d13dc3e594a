import ZeroTouch.Common.Lists
import ZeroTouch.Common.Text
/-!
# Frames of the tunnel

`tunnel::Frame`, one constructor for each type that is sent, and what a
list of frames says of one stream: the bytes its `DATA` frames carry, and
whether it was opened before them.
-/

namespace ZeroTouch

/-- The bytes of a stream. -/
abbrev Bytes : Type := List UInt8

/-- Why a `CLOSE` is sent. The first three send the same frame, with no
error. -/
inductive CloseReason
  /-- `Pump`, after the end of its socket's stream. -/
  | eof
  /-- `Pump`, after `recv` or the tunnel failed. -/
  | lost
  /-- The answer to `DATA` for a stream that is not held. -/
  | unknown
  | writeFailed
  | mismatch
  | dialFailed
  deriving DecidableEq, Repr

/-- The `error` of a `CLOSE`. -/
def CloseReason.error : CloseReason → Text
  | .eof | .lost | .unknown => []
  | .writeFailed => "local write failed".toList
  | .mismatch => "target mismatch".toList
  | .dialFailed => "local dial failed".toList

/-- `tunnel::Frame`. -/
inductive Frame
  | register (target : Text)
  | registerAck (target : Text)
  | openStream (id : ℕ) (target : Text)
  | data (id : ℕ) (bytes : Bytes)
  | close (id : ℕ) (reason : CloseReason)
  | keepalive
  deriving DecidableEq, Repr

/-- The bytes a frame carries for stream `n`. -/
def Frame.payload (n : ℕ) : Frame → Bytes
  | .data id bytes => if id = n then bytes else []
  | _ => []

/-- The bytes a list of frames carries for stream `n`. -/
def payloads (n : ℕ) (fs : List Frame) : Bytes := fs.flatMap (Frame.payload n)

@[simp] theorem payloads_append (n : ℕ) (fs gs : List Frame) :
    payloads n (fs ++ gs) = payloads n fs ++ payloads n gs := List.flatMap_append

@[simp] theorem payloads_singleton (n : ℕ) (f : Frame) : payloads n [f] = f.payload n := by
  simp [payloads]

theorem payloads_mono {fs gs : List Frame} (n : ℕ) (h : fs <+: gs) :
    payloads n fs <+: payloads n gs := by
  obtain ⟨rest, rfl⟩ := h
  exact ⟨_, (payloads_append n fs rest).symm⟩

/-- Where no frame is `DATA` of the stream, there are no bytes for it. -/
theorem payloads_eq_nil {n : ℕ} {fs : List Frame} (h : ∀ bytes, .data n bytes ∉ fs) :
    payloads n fs = [] := by
  simp only [payloads, List.flatMap_eq_nil_iff]
  intro f hf
  cases f with
  | data id bytes =>
    simp only [Frame.payload]
    rw [if_neg]
    rintro rfl
    exact h bytes hf
  | _ => rfl

/-- Stream `n` is opened among the frames. -/
def Opens (n : ℕ) (fs : List Frame) : Prop := ∃ target, .openStream n target ∈ fs

theorem Opens.mono {n : ℕ} {fs gs : List Frame} (h : Opens n fs) (hsub : ∀ f ∈ fs, f ∈ gs) :
    Opens n gs := by
  obtain ⟨target, hf⟩ := h
  exact ⟨target, hsub _ hf⟩

@[simp] theorem not_opens_nil (n : ℕ) : ¬ Opens n [] := by simp [Opens]

theorem opens_append {n : ℕ} {fs gs : List Frame} :
    Opens n (fs ++ gs) ↔ Opens n fs ∨ Opens n gs := by
  simp only [Opens, List.mem_append, exists_or]

theorem opens_singleton {n : ℕ} {f : Frame} : Opens n [f] ↔ ∃ target, f = .openStream n target := by
  simp [Opens, eq_comm]

/-- **What may come after `before`**: `DATA` of a stream that is open, and
`OPEN` of one that is not. -/
def Frame.After (before : List Frame) : Frame → Prop
  | .data n _ => Opens n before
  | .openStream n _ => ¬ Opens n before
  | _ => True

/-- **Every stream is opened once, before its bytes.** -/
def WellOpened (fs : List Frame) : Prop :=
  ∀ before f rest, fs = before ++ f :: rest → f.After before

theorem wellOpened_nil : WellOpened [] := by
  intro before f rest h
  simp at h

theorem WellOpened.snoc {fs : List Frame} {f : Frame} (h : WellOpened fs) (hf : f.After fs) :
    WellOpened (fs ++ [f]) := by
  intro before g rest heq
  rcases cases_snoc heq with ⟨rfl, rfl⟩ | ⟨rest', rfl⟩
  · exact hf
  · exact h before g rest' rfl

theorem WellOpened.of_prefix {fs gs : List Frame} (h : WellOpened gs) (hp : fs <+: gs) :
    WellOpened fs := by
  obtain ⟨more, rfl⟩ := hp
  intro before f rest heq
  exact h before f (rest ++ more) (by simp [heq])

/-- No bytes for a stream that is not open. -/
theorem WellOpened.payloads_eq_nil {fs : List Frame} (h : WellOpened fs) {n : ℕ}
    (hn : ¬ Opens n fs) : payloads n fs = [] := by
  refine ZeroTouch.payloads_eq_nil fun bytes hmem => hn ?_
  obtain ⟨before, rest, rfl⟩ := List.append_of_mem hmem
  exact (h before _ rest rfl).mono fun f hf => List.mem_append_left _ hf

end ZeroTouch
