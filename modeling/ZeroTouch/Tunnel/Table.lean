import ZeroTouch.Tunnel.Endpoint
/-!
# The stream table

Which connection is found under which stream. Connections are added under
streams of their own: a server takes each number once, and a client adds
one when it is asked to open a stream, which it is asked once. So the
connection in the table under a stream is the only one the stream ever
had, and what a pump erases under its stream's number is its own.
-/

namespace ZeroTouch

theorem lookup_erase_eq_some {s : AList (fun _ : ℕ => ℕ)} {n m c : ℕ} :
    (s.erase n).lookup m = some c ↔ m ≠ n ∧ s.lookup m = some c := by
  by_cases h : m = n
  · subst h
    simp
  · simp [AList.lookup_erase_ne h, h]

theorem lookup_insert_eq_some {s : AList (fun _ : ℕ => ℕ)} {n m c d : ℕ} :
    (s.insert n d).lookup m = some c ↔ (m = n ∧ c = d) ∨ (m ≠ n ∧ s.lookup m = some c) := by
  by_cases h : m = n
  · subst h
    simp [eq_comm]
  · simp [AList.lookup_insert_ne h, h]

namespace Endpoint

@[simp] theorem addConn_connId_self (e : Endpoint) (n : ℕ) (p : PumpPc) :
    (e.addConn n p).connId e.added = n := Function.update_self ..

theorem addConn_connId_of_lt (e : Endpoint) (n : ℕ) (p : PumpPc) {c : ℕ} (h : c < e.added) :
    (e.addConn n p).connId c = e.connId c := Function.update_of_ne (Nat.ne_of_lt h) ..

@[simp] theorem addConn_pump_self (e : Endpoint) (n : ℕ) (p : PumpPc) :
    (e.addConn n p).pump e.added = p := Function.update_self ..

theorem addConn_pump_of_ne (e : Endpoint) (n : ℕ) (p : PumpPc) {c : ℕ} (h : c ≠ e.added) :
    (e.addConn n p).pump c = e.pump c := Function.update_of_ne h ..

/-- What is closed stays closed. -/
theorem closed_store {e : Endpoint} {c c' : ℕ} (h : e.closed c' = true) :
    (e.store c).closed c' = true := by
  by_cases hc : c' = c
  · subst hc
    exact Function.update_self ..
  · exact (Function.update_of_ne hc ..).trans h

/-- No connection was added under stream `n`. -/
def Fresh (e : Endpoint) (n : ℕ) : Prop := ∀ c < e.added, e.connId c ≠ n

theorem Fresh.of_addConn {e : Endpoint} {n m : ℕ} {p : PumpPc} (h : (e.addConn n p).Fresh m) :
    e.Fresh m := by
  intro c hc
  rw [← e.addConn_connId_of_lt n p hc]
  exact h c (Nat.lt_succ_of_lt hc)

/-- **Every stream has one connection.** -/
structure Tabled (side : Side) (e : Endpoint) : Prop where
  table : ∀ n c, e.conns.lookup n = some c → c < e.added ∧ e.connId c = n
  inj : ∀ c c', c < e.added → c' < e.added → e.connId c = e.connId c' → c = c'
  unborn : ∀ c, e.added ≤ c → e.pump c = .unborn
  handling : ∀ f, e.reader = .handling f → ∃ before, e.received = before ++ [f]
  writing : ∀ n c rest, e.reader = .writing n c rest → c < e.added ∧ e.connId c = n
  adding : ∀ n, e.forwarder = .adding n → n < e.nextId ∧ e.Fresh n
  opening : ∀ n c, e.forwarder = .opening n c →
    c < e.added ∧ e.connId c = n ∧ e.pump c = .unborn
  spawning : ∀ c, e.forwarder = .spawning c → c < e.added ∧ e.pump c = .unborn
  server : side = .server → ∀ c < e.added, e.connId c < e.nextId
  client : side = .client → e.forwarder = .accepting ∧
    (∀ c < e.added, Opens (e.connId c) e.received) ∧
    ∀ n t, e.reader = .handling (.openStream n t) → e.Fresh n

theorem tabled_fresh (side : Side) : Tabled side (fresh side) := by
  cases side <;> constructor <;> simp [fresh, Fresh]

/-- A pump that is past its start belongs to a connection. -/
theorem Tabled.lt_added {side : Side} {e : Endpoint} (he : Tabled side e) {c : ℕ}
    (h : e.pump c ≠ .unborn) : c < e.added := by
  by_contra hc
  exact h (he.unborn c (Nat.le_of_not_lt hc))

/-- A step of a pump past its start keeps the table. -/
theorem Tabled.setPump {side : Side} {e : Endpoint} (he : Tabled side e) {c : ℕ} (p : PumpPc)
    (h : e.pump c ≠ .unborn) : Tabled side { e with pump := Function.update e.pump c p } := by
  have hne : ∀ c', e.pump c' = .unborn → Function.update e.pump c p c' = .unborn := by
    intro c' hc'
    have hne : c' ≠ c := fun heq => h (heq ▸ hc')
    rw [Function.update_of_ne hne, hc']
  exact { he with
    unborn := fun c' hc' => hne c' (he.unborn c' hc')
    opening := fun n c' hf =>
      have ⟨hlt, hid, hp⟩ := he.opening n c' hf
      ⟨hlt, hid, hne c' hp⟩
    spawning := fun c' hf =>
      have ⟨hlt, hp⟩ := he.spawning c' hf
      ⟨hlt, hne c' hp⟩ }

/-- Erasing an entry keeps the table. -/
theorem Tabled.erase {side : Side} {e : Endpoint} (he : Tabled side e) (n : ℕ) :
    Tabled side { e with conns := e.conns.erase n } :=
  { he with table := fun m c h => he.table m c (lookup_erase_eq_some.1 h).2 }

/-- A step of the read loop keeps the table. -/
theorem Tabled.setReader {side : Side} {e : Endpoint} (he : Tabled side e) (r : ReaderPc)
    (hw : ∀ n c rest, r = .writing n c rest → c < e.added ∧ e.connId c = n)
    (hh : ∀ f, r ≠ .handling f) : Tabled side { e with reader := r } :=
  { he with
    handling := fun f h => absurd h (hh f)
    writing := hw
    client := fun h => ⟨(he.client h).1, (he.client h).2.1, fun _ _ h => absurd h (hh _)⟩ }

/-- A step of the forwarder that leads to no connection keeps the table. -/
theorem Tabled.setForwarder {e : Endpoint} (he : Tabled .server e) (pc : ForwarderPc)
    (ha : ∀ n, pc ≠ .adding n) (ho : ∀ n c, pc ≠ .opening n c) (hs : ∀ c, pc ≠ .spawning c) :
    Tabled .server { e with forwarder := pc } :=
  { he with
    client := by simp
    adding := fun n h => absurd h (ha n)
    opening := fun n c h => absurd h (ho n c)
    spawning := fun c h => absurd h (hs c) }

theorem Tabled.returns {side : Side} {target : Text} {e e' : Endpoint} {ok : Bool} {f : Frame}
    {t : Thread} (he : Tabled side e) (h : Returns target e ok f t e') : Tabled side e' := by
  cases h with
  | register hr =>
    refine { he.setReader (if ok then .reading else .aborting) ?_ ?_ with }
    · cases ok <;> simp
    · cases ok <;> simp
  | reader hr => exact he.setReader _ (by simp) (by simp)
  | @forwarder n c hf =>
    obtain ⟨hlt, -, hp⟩ := he.opening n c hf
    obtain rfl : side = .server := by
      cases side with
      | server => rfl
      | client => exact absurd (hf.symm.trans (he.client rfl).1) (by simp)
    cases ok with
    | false => exact he.setForwarder _ (by simp) (by simp) (by simp)
    | true =>
      exact { he with
        client := by simp
        adding := by simp
        opening := by simp
        spawning := fun c' h => ForwarderPc.spawning.inj h ▸ ⟨hlt, hp⟩ }
  | keepalive hk => exact { he with }
  | data hp => exact he.setPump _ (by simp [hp])
  | close hp => exact he.setPump _ (by simp [hp])

/-- Adding a connection under a fresh stream keeps the table. -/
theorem Tabled.addConn {side : Side} {e : Endpoint} (he : Tabled side e) {n : ℕ} (hn : e.Fresh n)
    (p : PumpPc) (hs : side = .server → n < e.nextId)
    (hc : side = .client → Opens n e.received ∧ ∀ f, e.reader ≠ .handling f)
    (ha : ∀ m, e.forwarder ≠ .adding m) : Tabled side (e.addConn n p) := by
  have hcases : ∀ c, c < e.added + 1 → c = e.added ∨ c < e.added := fun c hc => by omega
  constructor
  · intro m c hl
    rcases lookup_insert_eq_some.1 hl with ⟨rfl, rfl⟩ | ⟨-, hl⟩
    · exact ⟨Nat.lt_succ_self _, e.addConn_connId_self m p⟩
    · obtain ⟨hlt, hid⟩ := he.table m c hl
      exact ⟨Nat.lt_succ_of_lt hlt, by rw [e.addConn_connId_of_lt n p hlt, hid]⟩
  · intro c c' hc hc' heq
    rcases hcases c hc with rfl | hlt <;> rcases hcases c' hc' with rfl | hlt'
    · rfl
    · rw [e.addConn_connId_self, e.addConn_connId_of_lt n p hlt'] at heq
      exact absurd heq.symm (hn c' hlt')
    · rw [e.addConn_connId_self, e.addConn_connId_of_lt n p hlt] at heq
      exact absurd heq (hn c hlt)
    · rw [e.addConn_connId_of_lt n p hlt, e.addConn_connId_of_lt n p hlt'] at heq
      exact he.inj c c' hlt hlt' heq
  · intro c hc
    have hlt : e.added < c := hc
    rw [e.addConn_pump_of_ne n p (Nat.ne_of_gt hlt)]
    exact he.unborn c (Nat.le_of_lt hlt)
  · exact he.handling
  · intro m c rest h
    obtain ⟨hlt, hid⟩ := he.writing m c rest h
    exact ⟨Nat.lt_succ_of_lt hlt, by rw [e.addConn_connId_of_lt n p hlt, hid]⟩
  · exact fun m h => absurd h (ha m)
  · intro m c h
    obtain ⟨hlt, hid, hp⟩ := he.opening m c h
    exact ⟨Nat.lt_succ_of_lt hlt, by rw [e.addConn_connId_of_lt n p hlt, hid],
      by rw [e.addConn_pump_of_ne n p (Nat.ne_of_lt hlt), hp]⟩
  · intro c h
    obtain ⟨hlt, hp⟩ := he.spawning c h
    exact ⟨Nat.lt_succ_of_lt hlt, by rw [e.addConn_pump_of_ne n p (Nat.ne_of_lt hlt), hp]⟩
  · intro hside c hc
    rcases hcases c hc with rfl | hlt
    · rw [e.addConn_connId_self]
      exact hs hside
    · rw [e.addConn_connId_of_lt n p hlt]
      exact he.server hside c hlt
  · intro hside
    obtain ⟨hopens, hreader⟩ := hc hside
    refine ⟨(he.client hside).1, fun c hlt => ?_, fun m t h => absurd h (hreader _)⟩
    rcases hcases c hlt with rfl | hlt
    · rw [e.addConn_connId_self]
      exact hopens
    · rw [e.addConn_connId_of_lt n p hlt]
      exact (he.client hside).2.1 c hlt

theorem Tabled.moves {side : Side} {e : Endpoint} {r : ReaderPc} (he : Tabled side e)
    (h : ReaderMoves side e r) : Tabled side { e with reader := r } := by
  cases h with
  | ended => refine he.setReader _ ?_ ?_ <;> split <;> simp
  | asked hr hr' =>
    rcases hr' with rfl | rfl
    · exact he.setReader _ (by simp) (by simp)
    · exact he.setReader _ (by simp) (by simp)
  | @delivering n c bytes hr hl =>
    refine he.setReader _ ?_ (by simp)
    intro m d rest heq
    obtain ⟨rfl, rfl, rfl⟩ := ReaderPc.writing.inj heq
    exact he.table n c hl
  | @gone n reply =>
    cases reply <;> exact he.setReader _ (by simp [afterClose]) (by simp [afterClose])
  | _ => exact he.setReader _ (by simp) (by simp)

/-- **Every step keeps the table**, where a client reads no second `OPEN`
of a stream. -/
theorem Tabled.step {side : Side} {target : Text} {e e' : Endpoint} {a : EndpointAct}
    (he : Tabled side e) (h : Steps side target e a e')
    (hread : ∀ f, a = .read (some f) → side = .client → f.After e.received) : Tabled side e' := by
  cases h with
  | @read f hr =>
    refine { he with
      handling := fun g hg => ⟨e.received, by rw [ReaderPc.handling.inj hg]⟩
      writing := by simp
      client := fun hside => ⟨(he.client hside).1, fun c hc => ?_, ?_⟩ }
    · exact ((he.client hside).2.1 c hc).mono fun g hg => List.mem_append_left _ hg
    · -- every connection's stream is open already, and this one is not
      intro n t heq c hc hid
      obtain rfl := ReaderPc.handling.inj heq
      exact hread _ rfl hside (hid ▸ (he.client hside).2.1 c hc)
  | moves reg t hm => exact { he.moves hm with }
  | @dialed _ n t hside hr =>
    -- the `OPEN` in hand is the last frame received, so its stream is open
    obtain ⟨hidle, -, hfresh⟩ := he.client hside
    obtain ⟨before, hreceived⟩ := he.handling _ hr
    refine (he.setReader .reading (by simp) (by simp)).addConn (hfresh n t hr) .receiving
      (fun h => absurd (hside.symm.trans h) (by simp)) (fun _ => ⟨?_, by simp⟩) (by simp [hidle])
    exact ⟨t, by simp [hreceived]⟩
  | @write _ n c k rest hr =>
    obtain ⟨hlt, hid⟩ := he.writing n c rest hr
    refine { he.setReader (.writing n c (rest.drop k)) ?_ (by simp) with }
    intro m d rest' heq
    obtain ⟨rfl, rfl, -⟩ := ReaderPc.writing.inj heq
    exact ⟨hlt, hid⟩
  | erase hr hl => exact (he.erase _).setReader _ (by simp) (by simp)
  | @store _ c reply hr =>
    cases reply <;> exact { he.setReader _ (by simp [afterClose]) (by simp [afterClose]) with }
  | stop hr hw => exact { he.setReader .swapping (by simp) (by simp) with }
  | abort hr hw => exact { he.setReader .finished (by simp) (by simp) with }
  | swap hr =>
    exact { he with
      table := by simp
      handling := by simp
      writing := by simp
      client := fun hside => ⟨(he.client hside).1, (he.client hside).2.1, by simp⟩ }
  | @sweep _ c taken hr => exact { he.setReader (.closing taken) (by simp) (by simp) with }
  | forwarder hside hm =>
    subst hside
    cases hm with
    | accepted hf => exact he.setForwarder _ (by simp) (by simp) (by simp)
    | fetched hf hpc =>
      rcases hpc with rfl | rfl <;> exact he.setForwarder _ (by simp) (by simp) (by simp)
    | gone hf hl => exact he.setForwarder _ (by simp) (by simp) (by simp)
  | allocate hside hf =>
    subst hside
    have hlt := he.server rfl
    refine { he with
      adding := fun n hn => ?_
      opening := by simp
      spawning := by simp
      server := fun _ c hc => Nat.lt_succ_of_lt (hlt c hc)
      client := by simp }
    obtain rfl := ForwarderPc.adding.inj hn
    exact ⟨Nat.lt_succ_self _, fun c hc => Nat.ne_of_lt (hlt c hc)⟩
  | @add _ n hside hf =>
    subst hside
    obtain ⟨hlt, hfresh⟩ := he.adding n hf
    have hadd := (he.setForwarder .accepting (by simp) (by simp) (by simp)).addConn hfresh .unborn
      (fun _ => hlt) (by simp) (by simp)
    refine { hadd with
      adding := by simp
      opening := fun m c h => ?_
      spawning := by simp
      client := by simp }
    obtain ⟨rfl, rfl⟩ := ForwarderPc.opening.inj h
    exact ⟨Nat.lt_succ_self _, e.addConn_connId_self n .unborn, e.addConn_pump_self n .unborn⟩
  | @spawn _ c hside hf =>
    subst hside
    obtain ⟨hlt, hp⟩ := he.spawning c hf
    refine { he.setForwarder .accepting (by simp) (by simp) (by simp) with
      unborn := fun c' hc' => ?_, opening := by simp, spawning := by simp }
    have hne : c' ≠ c := Nat.ne_of_gt (Nat.lt_of_lt_of_le hlt hc')
    exact (Function.update_of_ne hne _ _).trans (he.unborn c' hc')
  | forwarderErase hside hf hl =>
    subst hside
    exact (he.erase _).setForwarder _ (by simp) (by simp) (by simp)
  | forwarderStore hside hf =>
    subst hside
    exact { he.setForwarder .accepting (by simp) (by simp) (by simp) with }
  | @recv c bytes hp => exact { he.setPump (.sending bytes) (by simp [hp]) with }
  | recvEnd hp => exact he.setPump _ (by simp [hp])
  | exchange hp => exact { he.setPump (c := _) _ (by simp [hp]) with }
  | pumpErase hp => exact (he.erase _).setPump _ (by simp [hp])
  | beat hk => exact { he with }
  | lock hw ha => exact { he with }
  | dropped hw ha hret => exact he.returns hret
  | transmit hw hret => exact { he.returns hret with }
  | others reg => exact { he with }

/-- A connection keeps its stream, and a stream that had one and is out of
the table stays out. -/
theorem Tabled.keeps {side : Side} {target : Text} {e e' : Endpoint} {a : EndpointAct}
    (he : Tabled side e) (h : Steps side target e a e') :
    (∀ c < e.added, e'.connId c = e.connId c) ∧
      ∀ c < e.added, e.conns.lookup (e.connId c) = none →
        e'.conns.lookup (e.connId c) = none := by
  have herase : ∀ n c, e.conns.lookup (e.connId c) = none →
      (e.conns.erase n).lookup (e.connId c) = none := by
    intro n c hl
    rw [Option.eq_none_iff_forall_ne_some]
    intro d hd
    exact absurd (hl.symm.trans (lookup_erase_eq_some.1 hd).2) (by simp)
  have hadd : ∀ n p, e.Fresh n → (∀ c < e.added, (e.addConn n p).connId c = e.connId c) ∧
      ∀ c < e.added, e.conns.lookup (e.connId c) = none →
        (e.addConn n p).conns.lookup (e.connId c) = none := by
    intro n p hn
    refine ⟨fun c hc => e.addConn_connId_of_lt n p hc, fun c hc hl => ?_⟩
    exact (AList.lookup_insert_ne (hn c hc)).trans hl
  cases h with
  | @dialed _ n t hside hr => exact hadd n .receiving ((he.client hside).2.2 n t hr)
  | @erase _ n => exact ⟨fun _ _ => rfl, fun c _ => herase n c⟩
  | swap => exact ⟨fun _ _ => rfl, fun _ _ _ => AList.lookup_empty _⟩
  | @add _ n _ hf => exact hadd n .unborn (he.adding n hf).2
  | @forwarderErase _ n => exact ⟨fun _ _ => rfl, fun c _ => herase n c⟩
  | @pumpErase _ d => exact ⟨fun _ _ => rfl, fun c _ => herase (e.connId d) c⟩
  | dropped hw ha hret => cases hret <;> exact ⟨fun _ _ => rfl, fun _ _ h => h⟩
  | transmit hw hret => cases hret <;> exact ⟨fun _ _ => rfl, fun _ _ h => h⟩
  | _ => exact ⟨fun _ _ => rfl, fun _ _ h => h⟩

end Endpoint

end ZeroTouch
