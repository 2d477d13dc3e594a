import ZeroTouch.Tunnel.Table
/-!
# What an end writes of a stream

The read loop writes the bytes of a stream's `DATA` frames to its socket,
in the order it reads them. While it holds the stream nothing of them is
left out; once it does not, nothing more is written.
-/

namespace ZeroTouch

/-- The bytes of stream `n` that the read loop has in hand. -/
def ReaderPc.pending (n : ℕ) : ReaderPc → Bytes
  | .handling f => f.payload n
  | .writing id _ rest => if id = n then rest else []
  | _ => []

theorem pending_afterClose (n : ℕ) (reply : Option Frame) :
    (Endpoint.afterClose reply).pending n = [] := by
  cases reply <;> rfl

/-- **What a read loop may read**: at a server, `DATA` of a stream that has
a connection; at a client, what may come after all it has read. -/
def Endpoint.Expected (side : Side) (e : Endpoint) (f : Frame) : Prop :=
  match side with
  | .server => ∀ n bytes, f = .data n bytes → ¬ e.Fresh n
  | .client => f.After e.received

namespace Endpoint

/-- **The bytes of a stream are written in order, and none is left out
while it is held.** -/
structure Written (side : Side) (e : Endpoint) : Prop where
  held : ∀ n c, e.conns.lookup n = some c → (∀ f, e.reader ≠ .erasing n (some f)) →
    e.written n ++ e.reader.pending n = payloads n e.received
  writing : ∀ n c rest, e.reader = .writing n c rest →
    e.written n ++ rest = payloads n e.received
  isPrefix : ∀ n, e.written n <+: payloads n e.received
  fresh : ∀ n, e.Fresh n → e.written n = []
  last : ∀ n, (∃ c rest, e.reader = .writing n c rest) ∨ (∃ f, e.reader = .erasing n (some f)) →
    ∃ bytes, e.received.getLast? = some (.data n bytes)
  server : side = .server → ∀ n, e.Fresh n → ∀ bytes, .data n bytes ∉ e.received
  client : side = .client → WellOpened e.received

theorem written_fresh (side : Side) : Written side (fresh side) := by
  cases side <;> constructor <;> simp [Endpoint.fresh, wellOpened_nil, ReaderPc.pending]

/-- A step of the read loop that drops no bytes of a stream it holds. -/
theorem Written.setReader {side : Side} {e : Endpoint} (he : Written side e) {r : ReaderPc}
    (hheld : ∀ n c, e.conns.lookup n = some c → (∀ f, r ≠ .erasing n (some f)) →
      (∀ f, e.reader ≠ .erasing n (some f)) ∧ r.pending n = e.reader.pending n)
    (hw : ∀ n c rest, r ≠ .writing n c rest)
    (hl : ∀ n f, r = .erasing n (some f) → ∃ c rest, e.reader = .writing n c rest) :
    Written side { e with reader := r } := by
  refine { he with
    held := fun n c h hf => ?_
    writing := fun n c rest h => absurd h (hw n c rest)
    last := fun n h => ?_ }
  · obtain ⟨hf', hp⟩ := hheld n c h hf
    simp only [hp]
    exact he.held n c h hf'
  · rcases h with ⟨c, rest, h⟩ | ⟨f, h⟩
    · exact absurd h (hw n c rest)
    · exact he.last n (.inl (hl n f h))

/-- A frame that is no `DATA` carries nothing. -/
theorem payload_of_ne_data {f : Frame} (h : ∀ n bytes, f ≠ .data n bytes) (n : ℕ) :
    f.payload n = [] := by
  cases f with
  | data id bytes => exact absurd rfl (h id bytes)
  | _ => rfl

theorem Written.moves {side : Side} {e : Endpoint} {r : ReaderPc} (he : Written side e)
    (ht : Tabled side e) (h : ReaderMoves side e r) : Written side { e with reader := r } := by
  cases h with
  | ended hr =>
    refine he.setReader (fun n c _ _ => ?_) ?_ ?_ <;> split <;> simp [hr, ReaderPc.pending]
  | skipped hr hf _ =>
    exact he.setReader (by simp [hr, ReaderPc.pending, payload_of_ne_data hf]) (by simp) (by simp)
  | asked hr hr' =>
    rcases hr' with rfl | rfl <;>
      exact he.setReader (by simp [hr, ReaderPc.pending, Frame.payload]) (by simp) (by simp)
  | refused hr _ =>
    exact he.setReader (by simp [hr, ReaderPc.pending, Frame.payload]) (by simp) (by simp)
  | @unknown n bytes hr hl =>
    -- the bytes are dropped, of a stream that is not held
    refine he.setReader (fun m c hc _ => ⟨by simp [hr], ?_⟩) (by simp) (by simp)
    have hne : n ≠ m := by
      rintro rfl
      simp [hl] at hc
    simp [hr, ReaderPc.pending, Frame.payload, hne]
  | @delivering n c bytes hr hl =>
    have hpend : ∀ m, (ReaderPc.writing n c bytes).pending m = e.reader.pending m := by
      intro m
      simp [hr, ReaderPc.pending, Frame.payload]
    have hheld := he.held n c hl (by simp [hr])
    refine { he with
      held := fun m d hd _ => ?_
      writing := fun m d rest h => ?_
      last := fun m h => ?_ }
    · simp only [hpend]
      exact he.held m d hd (by simp [hr])
    · obtain ⟨rfl, rfl, rfl⟩ := ReaderPc.writing.inj h
      simpa [hr, ReaderPc.pending, Frame.payload] using hheld
    · obtain ⟨before, hreceived⟩ := ht.handling _ hr
      have hm : n = m := by
        rcases h with ⟨d, rest, h⟩ | ⟨f, h⟩
        · exact (ReaderPc.writing.inj h).1
        · cases h
      exact ⟨bytes, by simp [hreceived, hm]⟩
  | @delivered n c hr =>
    refine he.setReader (fun m d _ _ => ⟨by simp [hr], ?_⟩) (by simp) (by simp)
    simp [hr, ReaderPc.pending]
  | @writeFailed n c b rest hr =>
    -- bytes of this stream are lost; it is held until the next step, and `held` leaves it out
    refine he.setReader (fun m d hd hf => ⟨by simp [hr], ?_⟩) (by simp) fun m f h => ?_
    · have hne : n ≠ m := by
        rintro rfl
        exact hf _ rfl
      simp [hr, ReaderPc.pending, hne]
    · exact ⟨c, b :: rest, by rw [hr, (ReaderPc.erasing.inj h).1]⟩
  | closed hr =>
    exact he.setReader (by simp [hr, ReaderPc.pending, Frame.payload]) (by simp) (by simp)
  | @gone n reply hr hl =>
    refine he.setReader (fun m c hc _ => ⟨?_, ?_⟩) ?_ ?_
    · rintro f hf
      rw [(ReaderPc.erasing.inj (hr.symm.trans hf)).1] at hl
      simp [hl] at hc
    · rw [pending_afterClose, hr]
      rfl
    · cases reply <;> simp [afterClose]
    · cases reply <;> simp [afterClose]
  | removed hr => exact he.setReader (by simp [hr, ReaderPc.pending]) (by simp) (by simp)
  | registered hr => exact he.setReader (by simp [hr, ReaderPc.pending]) (by simp) (by simp)
  | unwound hr => exact he.setReader (by simp [hr, ReaderPc.pending]) (by simp) (by simp)
  | swept hr => exact he.setReader (by simp [hr, ReaderPc.pending]) (by simp) (by simp)

/-- Adding a connection under a stream of which nothing was received. -/
theorem Written.addConn {side : Side} {e : Endpoint} (he : Written side e) {n : ℕ}
    (hn : e.Fresh n) (hpay : payloads n e.received = []) (hpend : e.reader.pending n = [])
    (p : PumpPc) : Written side (e.addConn n p) := by
  refine { he with
    held := fun m c h hf => ?_
    fresh := fun m h => he.fresh m h.of_addConn
    server := fun hs m h => he.server hs m h.of_addConn }
  rcases lookup_insert_eq_some.1 h with ⟨rfl, -⟩ | ⟨-, h⟩
  · show e.written m ++ e.reader.pending m = payloads m e.received
    rw [he.fresh m hn, hpend, hpay]
    rfl
  · exact he.held m c h hf

/-- Erasing an entry. -/
theorem Written.erase {side : Side} {e : Endpoint} (he : Written side e) (n : ℕ) :
    Written side { e with conns := e.conns.erase n } :=
  { he with held := fun m c h hf => he.held m c (lookup_erase_eq_some.1 h).2 hf }

/-- A frame is read. -/
theorem Written.read {side : Side} {e : Endpoint} (he : Written side e) {f : Frame}
    (hr : e.reader = .reading) (hf : e.Expected side f) :
    Written side { e with received := e.received ++ [f], reader := .handling f } := by
  refine
    { held := fun n c h _ => ?_
      writing := by simp
      isPrefix := fun n => (he.isPrefix n).trans (payloads_mono n (List.prefix_append _ _))
      fresh := he.fresh
      last := by simp
      server := fun hs n hn bytes h => ?_
      client := fun hs => ?_ }
  · have := he.held n c h (by simp [hr])
    simp only [hr, ReaderPc.pending, List.append_nil] at this
    simp [ReaderPc.pending, this]
  · subst hs
    rcases List.mem_append.1 h with h | h
    · exact he.server rfl n hn bytes h
    · exact hf n bytes (List.mem_singleton.1 h).symm hn
  · subst hs
    exact (he.client rfl).snoc hf

/-- Nothing was received of a stream that is about to be dialled. -/
theorem payloads_of_handling_openStream {e : Endpoint} (he : Written .client e)
    (ht : Tabled .client e) {n : ℕ} {t : Text} (hr : e.reader = .handling (.openStream n t)) :
    payloads n e.received = [] := by
  obtain ⟨before, hreceived⟩ := ht.handling _ hr
  have hwell := he.client rfl
  rw [hreceived] at hwell ⊢
  have hn : ¬ Opens n before := hwell before _ [] rfl
  rw [payloads_append, (hwell.of_prefix (List.prefix_append _ _)).payloads_eq_nil hn]
  simp [Frame.payload]

/-- What the read loop has in hand of a stream, it has received. -/
theorem pending_of_fresh {e : Endpoint} (he : Written .server e) (ht : Tabled .server e) {n : ℕ}
    (hn : e.Fresh n) : e.reader.pending n = [] := by
  cases hr : e.reader with
  | handling f =>
    obtain ⟨before, hreceived⟩ := ht.handling f hr
    cases f with
    | data id bytes =>
      have hne : id ≠ n := by
        rintro rfl
        exact he.server rfl id hn bytes (by simp [hreceived])
      simp [ReaderPc.pending, Frame.payload, hne]
    | _ => rfl
  | writing m c rest =>
    obtain ⟨hc, hid⟩ := ht.writing m c rest hr
    have hne : m ≠ n := fun h => hn c hc (hid.trans h)
    simp [ReaderPc.pending, hne]
  | _ => rfl

/-- Bytes are written. -/
theorem Written.write {side : Side} {e : Endpoint} (he : Written side e) (ht : Tabled side e)
    {n c : ℕ} {rest : Bytes} (k : ℕ) (hr : e.reader = .writing n c rest) :
    Written side { e with
      written := Function.update e.written (e.connId c) (e.written (e.connId c) ++ rest.take k)
      reader := .writing n c (rest.drop k) } := by
  obtain ⟨hc, rfl⟩ := ht.writing n c rest hr
  have hw := he.writing _ c rest hr
  have hsplit : e.written (e.connId c) ++ rest.take k ++ rest.drop k =
      payloads (e.connId c) e.received := by
    rw [List.append_assoc, List.take_append_drop, hw]
  refine
    { held := fun m d h _ => ?_
      writing := fun m d rest' h => ?_
      isPrefix := fun m => ?_
      fresh := fun m hm => ?_
      last := fun m h => ?_
      server := he.server
      client := he.client }
  · by_cases hm : m = e.connId c
    · subst hm
      simpa [ReaderPc.pending] using hsplit
    · have := he.held m d h (by simp [hr])
      simpa [hr, ReaderPc.pending, Function.update_of_ne hm, Ne.symm hm] using this
  · obtain ⟨rfl, rfl, rfl⟩ := ReaderPc.writing.inj h
    simpa using hsplit
  · by_cases hm : m = e.connId c
    · subst hm
      simpa using ⟨rest.drop k, hsplit⟩
    · simpa [Function.update_of_ne hm] using he.isPrefix m
  · have hne : m ≠ e.connId c := fun h => hm c hc h.symm
    simpa [Function.update_of_ne hne] using he.fresh m hm
  · refine he.last m ?_
    rcases h with ⟨d, rest', h⟩ | ⟨f, h⟩
    · exact .inl ⟨c, rest, by rw [hr, (ReaderPc.writing.inj h).1]⟩
    · cases h

theorem Written.returns {side : Side} {target : Text} {e e' : Endpoint} {ok : Bool} {f : Frame}
    {t : Thread} (he : Written side e) (h : Returns target e ok f t e') : Written side e' := by
  cases h with
  | register hr =>
    cases ok
    · exact { he.setReader (r := .aborting) (by simp [hr, ReaderPc.pending]) (by simp)
        (by simp) with }
    · exact { he.setReader (r := .reading) (by simp [hr, ReaderPc.pending]) (by simp)
        (by simp) with }
  | reader hr => exact he.setReader (by simp [hr, ReaderPc.pending]) (by simp) (by simp)
  | _ => exact { he with }

/-- **Every step keeps the bytes in order.** -/
theorem Written.step {side : Side} {target : Text} {e e' : Endpoint} {a : EndpointAct}
    (he : Written side e) (ht : Tabled side e) (h : Steps side target e a e')
    (hread : ∀ f, a = .read (some f) → e.Expected side f) : Written side e' := by
  cases h with
  | @read f hr => exact he.read hr (hread f rfl)
  | moves reg t hm => exact { he.moves ht hm with }
  | @dialed _ n t hside hr =>
    subst hside
    have hset := he.setReader (r := .reading) (by simp [hr, ReaderPc.pending, Frame.payload])
      (by simp) (by simp)
    exact hset.addConn ((ht.client rfl).2.2 n t hr) (payloads_of_handling_openStream he ht hr) rfl
      .receiving
  | @write _ n c k rest hr => exact he.write ht k hr
  | @erase _ n c reply hr hl =>
    refine (he.erase n).setReader (fun m d hd _ => ⟨?_, ?_⟩) (by simp) (by simp)
    · intro f hf
      have hm := (ReaderPc.erasing.inj (hr.symm.trans hf)).1
      exact (lookup_erase_eq_some.1 hd).1 hm.symm
    · simp [hr, ReaderPc.pending]
  | @store _ c reply hr =>
    refine { he.setReader (r := afterClose reply) (fun n d _ _ => ⟨by simp [hr], ?_⟩) ?_ ?_ with }
    · rw [pending_afterClose, hr]
      rfl
    · cases reply <;> simp [afterClose]
    · cases reply <;> simp [afterClose]
  | stop hr hw =>
    exact { he.setReader (r := .swapping) (by simp [hr, ReaderPc.pending]) (by simp)
      (by simp) with }
  | abort hr hw =>
    exact { he.setReader (r := .finished) (by simp [hr, ReaderPc.pending]) (by simp)
      (by simp) with }
  | swap hr =>
    exact { he with held := by simp, writing := by simp, last := by simp }
  | @sweep _ c taken hr =>
    exact { he.setReader (r := .closing taken) (by simp [hr, ReaderPc.pending]) (by simp)
      (by simp) with }
  | @add _ n hside hf =>
    subst hside
    obtain ⟨-, hfresh⟩ := ht.adding n hf
    exact { he.addConn hfresh (payloads_eq_nil (he.server rfl n hfresh))
      (pending_of_fresh he ht hfresh) .unborn with }
  | @forwarderErase _ n c hside hf hl => exact { he.erase n with }
  | @pumpErase _ c ours why hp => exact { he.erase (e.connId c) with }
  | dropped hw ha hret => exact he.returns hret
  | transmit hw hret => exact { he.returns hret with }
  | _ => exact { he with }

/-- **A stream that is held when its `CLOSE` comes has been written in
full.** -/
theorem Written.of_close {side : Side} {e : Endpoint} (he : Written side e) (ht : Tabled side e)
    {n c : ℕ} {why : CloseReason} (hl : e.received.getLast? = some (.close n why))
    (hc : e.conns.lookup n = some c) : e.written n = payloads n e.received := by
  have hne : ∀ f, e.reader ≠ .erasing n (some f) := by
    intro f hf
    obtain ⟨bytes, h⟩ := he.last n (.inr ⟨f, hf⟩)
    exact absurd (hl.symm.trans h) (by simp)
  have hpend : e.reader.pending n = [] := by
    cases hr : e.reader with
    | handling f =>
      obtain ⟨before, hreceived⟩ := ht.handling f hr
      have : f = .close n why := by simpa [hreceived] using hl
      simp [ReaderPc.pending, this, Frame.payload]
    | writing m d rest =>
      obtain ⟨bytes, h⟩ := he.last m (.inl ⟨d, rest, hr⟩)
      exact absurd (hl.symm.trans h) (by simp)
    | _ => rfl
  simpa [hpend] using he.held n c hc hne

end Endpoint

end ZeroTouch
