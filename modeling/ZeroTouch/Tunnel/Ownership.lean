import ZeroTouch.Tunnel.Table
/-!
# Who closes a connection

A connection that is added is closed by someone: by its pump, or by the
thread that takes it out of the table, which sets its flag one step later.
At no time is there one that is not closed, not in the table and in
nobody's hands.
-/

namespace ZeroTouch

namespace Endpoint

/-- Someone closes connection `c`: it is closed, in the table, or in the
hands of a thread that has taken it out. -/
inductive Owner (c : ℕ) (closed : Bool) (entry : Option ℕ) (reader : ReaderPc)
    (forwarder : ForwarderPc) : Prop
  | closed : closed = true → Owner c closed entry reader forwarder
  | tabled : entry = some c → Owner c closed entry reader forwarder
  | storing {reply : Option Frame} : reader = .storing c reply →
      Owner c closed entry reader forwarder
  | taken {taken : List ℕ} : reader = .closing taken → c ∈ taken →
      Owner c closed entry reader forwarder
  | forwarder : forwarder = .storing c → Owner c closed entry reader forwarder

/-- Connection `c` is closed, or someone closes it. -/
def Owned (e : Endpoint) (c : ℕ) : Prop :=
  Owner c (e.closed c) (e.conns.lookup (e.connId c)) e.reader e.forwarder

/-- **No connection is forgotten.** -/
structure Accounted (e : Endpoint) : Prop where
  erasing : ∀ c ours why, e.pump c = .erasing ours why → e.closed c = true
  owned : ∀ c < e.added, e.Owned c

theorem accounted_fresh (side : Side) : Accounted (fresh side) := by
  cases side <;> constructor <;> simp [fresh]

/-- A connection stays owned where the read loop lets go of none. -/
theorem Owned.setReader {e : Endpoint} {c : ℕ} (h : e.Owned c) {r : ReaderPc}
    (hs : ∀ reply, e.reader = .storing c reply → ∃ reply', r = .storing c reply')
    (ht : ∀ taken, e.reader = .closing taken → c ∈ taken →
      ∃ taken', r = .closing taken' ∧ c ∈ taken') :
    Owned { e with reader := r } c := by
  cases h with
  | closed h => exact .closed h
  | tabled h => exact .tabled h
  | storing h =>
    obtain ⟨reply', hr⟩ := hs _ h
    exact .storing hr
  | taken h hmem =>
    obtain ⟨taken', hr, hmem'⟩ := ht _ h hmem
    exact .taken hr hmem'
  | forwarder h => exact .forwarder h

/-- A step of the read loop that holds no connection. -/
theorem Accounted.setReader {e : Endpoint} (he : Accounted e) {r : ReaderPc}
    (hstoring : ∀ c reply, e.reader ≠ .storing c reply)
    (hclosing : ∀ c taken, e.reader ≠ .closing (c :: taken)) : Accounted { e with reader := r } := by
  refine { he with owned := fun c hc => (he.owned c hc).setReader ?_ ?_ }
  · exact fun reply h => absurd h (hstoring c reply)
  · intro taken h hmem
    cases taken with
    | nil => cases hmem
    | cons c' taken => exact absurd h (hclosing c' taken)

/-- Setting a flag. -/
theorem Accounted.store {e : Endpoint} (he : Accounted e) (c : ℕ) : Accounted (e.store c) := by
  refine ⟨fun c' ours why h => closed_store (he.erasing c' ours why h), fun c' hc' => ?_⟩
  cases he.owned c' hc' with
  | closed h => exact .closed (closed_store h)
  | tabled h => exact .tabled h
  | storing h => exact .storing h
  | taken h hmem => exact .taken h hmem
  | forwarder h => exact .forwarder h

/-- A step of a pump that is not at the table. -/
theorem Accounted.setPump {e : Endpoint} (he : Accounted e) (c : ℕ) {p : PumpPc}
    (hp : ∀ ours why, p ≠ .erasing ours why) :
    Accounted { e with pump := Function.update e.pump c p } := by
  refine { he with erasing := fun c' ours why h => ?_ }
  by_cases hc : c' = c
  · subst hc
    simp only [Function.update_self] at h
    exact absurd h (hp ours why)
  · simp only [Function.update_of_ne hc] at h
    exact he.erasing c' ours why h

/-- A step of the forwarder that holds no connection. -/
theorem Accounted.setForwarder {e : Endpoint} (he : Accounted e) {f : ForwarderPc}
    (hstoring : ∀ c, e.forwarder ≠ .storing c) : Accounted { e with forwarder := f } := by
  refine { he with owned := fun c hc => ?_ }
  cases he.owned c hc with
  | closed h => exact .closed h
  | tabled h => exact .tabled h
  | storing h => exact .storing h
  | taken h hmem => exact .taken h hmem
  | forwarder h => exact absurd h (hstoring c)

/-- A new connection is in the table. -/
theorem Accounted.addConn {e : Endpoint} (he : Accounted e) {n : ℕ} (hn : e.Fresh n) {p : PumpPc}
    (hp : ∀ ours why, p ≠ .erasing ours why) : Accounted (e.addConn n p) := by
  refine ⟨fun c ours why h => ?_, fun c hc => ?_⟩
  · have hc : c ≠ e.added := by
      rintro rfl
      exact hp ours why ((e.addConn_pump_self n p).symm.trans h)
    have hpc : e.pump c = .erasing ours why := (e.addConn_pump_of_ne n p hc).symm.trans h
    exact (Function.update_of_ne hc ..).trans (he.erasing c ours why hpc)
  · rcases Nat.lt_succ_iff_lt_or_eq.1 hc with hc | rfl
    · have hid : (e.addConn n p).connId c = e.connId c := e.addConn_connId_of_lt n p hc
      cases he.owned c hc with
      | closed h => exact .closed ((Function.update_of_ne (Nat.ne_of_lt hc) ..).trans h)
      | tabled h =>
        refine .tabled ?_
        rw [hid]
        exact lookup_insert_eq_some.2 (.inr ⟨hn c hc, h⟩)
      | storing h => exact .storing h
      | taken h hmem => exact .taken h hmem
      | forwarder h => exact .forwarder h
    · refine .tabled ?_
      rw [e.addConn_connId_self n p]
      exact lookup_insert_eq_some.2 (.inl ⟨rfl, rfl⟩)

/-- A connection that is not the one taken out of the table stays owned. -/
theorem Owned.erase {e : Endpoint} {c n : ℕ} (h : e.Owned c) (hn : e.connId c ≠ n) :
    Owned { e with conns := e.conns.erase n } c := by
  cases h with
  | closed h => exact .closed h
  | tabled h => exact .tabled (lookup_erase_eq_some.2 ⟨hn, h⟩)
  | storing h => exact .storing h
  | taken h hmem => exact .taken h hmem
  | forwarder h => exact .forwarder h

/-- The return of a thread from `Send`. -/
theorem Accounted.returns {target : Text} {e e' : Endpoint} {ok : Bool} {f : Frame} {t : Thread}
    (he : Accounted e) (h : Returns target e ok f t e') : Accounted e' := by
  cases h with
  | register hr =>
    exact { he.setReader (r := if ok then .reading else .aborting) (by simp [hr])
      (by simp [hr]) with }
  | reader hr => exact he.setReader (by simp [hr]) (by simp [hr])
  | forwarder hf => exact he.setForwarder (by simp [hf])
  | keepalive hk => exact { he with }
  | data hp => exact he.setPump _ (by cases ok <;> simp)
  | close hp => exact he.setPump _ (by simp)

/-- Where the read loop goes by itself, it holds no connection. -/
theorem ReaderMoves.holds_none {side : Side} {e : Endpoint} {r : ReaderPc}
    (h : ReaderMoves side e r) :
    (∀ c reply, e.reader ≠ .storing c reply) ∧ ∀ c taken, e.reader ≠ .closing (c :: taken) := by
  cases h <;> simp [*]

/-- **Every step keeps every connection owned.** -/
theorem Accounted.step {side : Side} {target : Text} {e e' : Endpoint} {a : EndpointAct}
    (he : Accounted e) (ht : Tabled side e) (h : Steps side target e a e') : Accounted e' := by
  cases h with
  | @read f hr => exact { he.setReader (r := .handling f) (by simp [hr]) (by simp [hr]) with }
  | @moves _ r reg t hm =>
    exact { he.setReader (r := r) hm.holds_none.1 hm.holds_none.2 with }
  | @dialed _ n t hside hr =>
    have hadd := he.addConn ((ht.client hside).2.2 n t hr) (p := .receiving) (by simp)
    refine hadd.setReader ?_ ?_
    · intro c reply h
      exact absurd (hr.symm.trans h) (by simp)
    · intro c taken h
      exact absurd (hr.symm.trans h) (by simp)
  | @write _ n c k rest hr =>
    exact { he.setReader (r := .writing n c (rest.drop k)) (by simp [hr]) (by simp [hr]) with }
  | @erase _ n c reply hr hl =>
    refine { he with owned := fun c' hc' => ?_ }
    by_cases hn : e.connId c' = n
    · -- what was found under the stream is its connection
      cases he.owned c' hc' with
      | closed h => exact .closed h
      | tabled h =>
        obtain rfl : c = c' := Option.some.inj (hl.symm.trans (hn ▸ h))
        exact .storing rfl
      | storing h => exact absurd (hr.symm.trans h) (by simp)
      | taken h _ => exact absurd (hr.symm.trans h) (by simp)
      | forwarder h => exact .forwarder h
    · exact ((he.owned c' hc').erase hn).setReader
        (fun _ h => absurd (hr.symm.trans h) (by simp))
        (fun _ h => absurd (hr.symm.trans h) (by simp))
  | @store _ c reply hr =>
    refine { he.store c with owned := fun c' hc' => ?_ }
    by_cases hcc : c' = c
    · exact .closed (hcc ▸ Function.update_self ..)
    · refine ((he.store c).owned c' hc').setReader (fun reply' h => ?_) (fun taken h => ?_)
      · exact absurd (ReaderPc.storing.inj (hr.symm.trans h)).1.symm hcc
      · exact absurd (hr.symm.trans h) (by simp)
  | stop hr hw => exact { he.setReader (r := .swapping) (by simp [hr]) (by simp [hr]) with }
  | abort hr hw => exact { he.setReader (r := .finished) (by simp [hr]) (by simp [hr]) with }
  | swap hr =>
    refine { he with owned := fun c hc => ?_ }
    cases he.owned c hc with
    | closed h => exact .closed h
    | tabled h => exact .taken rfl (List.mem_map.2 ⟨⟨_, c⟩, AList.mem_lookup_iff.1 h, rfl⟩)
    | storing h => exact absurd (hr.symm.trans h) (by simp)
    | taken h _ => exact absurd (hr.symm.trans h) (by simp)
    | forwarder h => exact .forwarder h
  | @sweep _ c taken hr =>
    refine { he.store c with owned := fun c' hc' => ?_ }
    by_cases hcc : c' = c
    · exact .closed (hcc ▸ Function.update_self ..)
    · refine ((he.store c).owned c' hc').setReader (fun reply' h => ?_) (fun taken' h hmem => ?_)
      · exact absurd (hr.symm.trans h) (by simp)
      · obtain rfl := ReaderPc.closing.inj (hr.symm.trans h)
        exact ⟨taken, rfl, by simpa [hcc] using hmem⟩
  | forwarder _ hm =>
    refine he.setForwarder ?_
    cases hm <;> simp [*]
  | @allocate _ _ hf =>
    exact { he.setForwarder (f := .adding e.nextId) (by simp [hf]) with }
  | @add _ n _ hf =>
    have hadd := he.addConn (ht.adding n hf).2 (p := .unborn) (by simp)
    exact hadd.setForwarder fun c h => absurd (hf.symm.trans h) (by simp)
  | @spawn _ c _ hf =>
    exact (he.setForwarder (f := .accepting) (by simp [hf])).setPump c (by simp)
  | @forwarderErase _ n c _ hf hl =>
    refine { he with owned := fun c' hc' => ?_ }
    cases he.owned c' hc' with
    | closed h => exact .closed h
    | tabled h =>
      by_cases hn : e.connId c' = n
      · obtain rfl : c = c' := Option.some.inj (hl.symm.trans (hn ▸ h))
        exact .forwarder rfl
      · exact .tabled (lookup_erase_eq_some.2 ⟨hn, h⟩)
    | storing h => exact .storing h
    | taken h hmem => exact .taken h hmem
    | forwarder h => exact absurd (hf.symm.trans h) (by simp)
  | @forwarderStore _ c _ hf =>
    refine { he.store c with owned := fun c' hc' => ?_ }
    cases (he.store c).owned c' hc' with
    | closed h => exact .closed h
    | tabled h => exact .tabled h
    | storing h => exact .storing h
    | taken h hmem => exact .taken h hmem
    | forwarder h =>
      have : c = c' := ForwarderPc.storing.inj (hf.symm.trans h)
      exact .closed (this ▸ Function.update_self ..)
  | recv hp => exact { he.setPump _ (p := .sending _) (by simp) with }
  | recvEnd hp => exact he.setPump _ (by simp)
  | @exchange _ c why hp =>
    refine { he.store c with erasing := fun c' ours why h => ?_ }
    by_cases hc : c' = c
    · subst hc
      exact Function.update_self ..
    · simp only [Function.update_of_ne hc] at h
      exact closed_store (he.erasing c' ours why h)
  | @pumpErase _ c ours why hp =>
    have hc := ht.lt_added (c := c) (by simp [hp])
    have hpump := he.setPump c (p := if ours then .closing why else .done) (by cases ours <;> simp)
    refine { hpump with owned := fun c' hc' => ?_ }
    -- its stream has no other connection, and this one's pump has marked it
    by_cases hn : e.connId c' = e.connId c
    · exact .closed (ht.inj c' c hc' hc hn ▸ he.erasing c ours why hp)
    · exact (he.owned c' hc').erase hn
  | beat hk => exact { he with }
  | lock hw ha => exact { he with }
  | dropped hw ha hret => exact he.returns hret
  | transmit hw hret => exact { he.returns hret with }
  | others reg => exact { he with }

end Endpoint

end ZeroTouch
