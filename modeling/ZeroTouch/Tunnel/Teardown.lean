import ZeroTouch.Tunnel.Ownership
/-!
# The end of a session at the server

`Remove`, `Shutdown` and `CloseAll`, against a forwarder that may have
fetched the session before and adds a connection at any time, and against
pumps that end by themselves. `Shutdown` takes `write_mu_`, so no `Send`
is under way when `alive_` becomes false; what the forwarder adds after
`CloseAll` has swapped the table, it takes out again, since its `Send` then
fails.
-/

namespace ZeroTouch

namespace Endpoint

/-- `CloseAll` has swapped the table. -/
def Swept (r : ReaderPc) : Prop := r = .finished ∨ ∃ taken, r = .closing taken

/-- **No connection is forgotten**, and no frame is written after
`Shutdown`. -/
structure Torn (e : Endpoint) : Prop where
  late : e.late = []
  writer : ∀ t, e.writer = some t → e.alive = true
  dead : e.reader = .swapping ∨ Swept e.reader → e.alive = false
  serving : e.reader ≠ .registering ∧ e.reader ≠ .aborting
  erasing : ∀ c ours why, e.pump c = .erasing ours why → e.closed c = true
  owned : ∀ c < e.added, e.Owned c
  swept : Swept e.reader → ∀ n c, e.conns.lookup n = some c →
    e.forwarder = .opening n c ∨ e.forwarder = .erasing n

theorem torn_fresh : Torn (fresh .server) := by
  constructor <;> simp [fresh, Swept]

theorem Torn.accounted {e : Endpoint} (he : Torn e) : Accounted e := ⟨he.erasing, he.owned⟩

/-- A step of the read loop alone is not of the teardown, or is its last. -/
theorem ReaderMoves.cases_teardown {e : Endpoint} {r : ReaderPc} (h : ReaderMoves .server e r) :
    (e.reader = .closing [] ∧ r = .finished) ∨
      (¬ (r = .swapping ∨ Swept r) ∧ r ≠ .registering ∧ r ≠ .aborting) := by
  cases h with
  | swept hr => exact .inl ⟨hr, rfl⟩
  | asked hr hr' => rcases hr' with rfl | rfl <;> simp [Swept]
  | @gone n reply hr hl => cases reply <;> simp [Swept, afterClose]
  | _ => simp [Swept]

/-- A step of the read loop outside the teardown. -/
theorem Torn.setReader {e : Endpoint} (he : Torn e) {r : ReaderPc}
    (hacc : Accounted { e with reader := r }) (hr : ¬ (r = .swapping ∨ Swept r))
    (hserving : r ≠ .registering ∧ r ≠ .aborting) : Torn { e with reader := r } :=
  { he with
    dead := fun h => absurd h hr
    serving := hserving
    erasing := hacc.erasing
    owned := hacc.owned
    swept := fun h => absurd (.inr h) hr }

theorem Torn.moves {e : Endpoint} {r : ReaderPc} (he : Torn e) (h : ReaderMoves .server e r) :
    Torn { e with reader := r } := by
  have hacc := he.accounted.setReader (r := r) h.holds_none.1 h.holds_none.2
  rcases h.cases_teardown with ⟨hr, rfl⟩ | ⟨hr, hserving⟩
  · have hswept : Swept e.reader := .inr ⟨[], hr⟩
    exact { he with
      dead := fun _ => he.dead (.inr hswept)
      serving := by simp
      owned := hacc.owned
      swept := fun _ => he.swept hswept }
  · exact he.setReader hacc hr hserving

theorem Torn.returns {target : Text} {e e' : Endpoint} {ok : Bool} {f : Frame} {t : Thread}
    (he : Torn e) (hok : ok = true → e.alive = true) (h : Returns target e ok f t e') :
    Torn e' := by
  have hacc := he.accounted.returns h
  cases h with
  | register hr => exact absurd hr he.serving.1
  | reader hr => exact he.setReader hacc (by simp [Swept]) (by simp)
  | @forwarder n c hf =>
    refine { he with owned := hacc.owned, swept := fun hswept m d hl => ?_ }
    cases ok with
    -- after the swap no `OPEN` is sent, so what is in the table is taken out again
    | true => exact absurd (he.dead (.inr hswept)) (by simp [hok rfl])
    | false =>
      have : n = m ∧ c = d := by simpa [hf] using he.swept hswept m d hl
      simp [this.1]
  | keepalive hk => exact { he with }
  | data hp => exact { he with erasing := hacc.erasing }
  | close hp => exact { he with erasing := hacc.erasing }

/-- **Every step keeps every connection owned.** -/
theorem Torn.step {target : Text} {e e' : Endpoint} {a : EndpointAct} (he : Torn e)
    (ht : Tabled .server e) (h : Steps .server target e a e') : Torn e' := by
  have hacc := he.accounted.step ht h
  -- where the forwarder is not at an `OPEN`, nothing is in a table that was swapped
  have hempty : (∀ n c, e.forwarder ≠ .opening n c) → (∀ n, e.forwarder ≠ .erasing n) →
      Swept e.reader → ∀ n c, e.conns.lookup n ≠ some c := by
    intro ho her hs n c hl
    rcases he.swept hs n c hl with h | h
    · exact ho n c h
    · exact her n h
  cases h with
  | @read f hr =>
    exact { he.setReader (r := .handling f) ⟨hacc.erasing, hacc.owned⟩ (by simp [Swept])
      (by simp) with }
  | moves reg t hm => exact { he.moves hm with }
  | @write _ n c k rest hr =>
    exact { he.setReader (r := .writing n c (rest.drop k)) ⟨hacc.erasing, hacc.owned⟩
      (by simp [Swept]) (by simp) with }
  | erase hr hl =>
    exact { he with
      dead := by simp [Swept]
      serving := by simp
      owned := hacc.owned
      swept := by simp [Swept] }
  | @store _ c reply hr =>
    have hafter : ¬ (afterClose reply = .swapping ∨ Swept (afterClose reply)) ∧
        afterClose reply ≠ .registering ∧ afterClose reply ≠ .aborting := by
      cases reply <;> simp [afterClose, Swept]
    exact { he with
      dead := fun h => absurd h hafter.1
      serving := hafter.2
      erasing := hacc.erasing
      owned := hacc.owned
      swept := fun h => absurd (.inr h) hafter.1 }
  | stop hr hw =>
    exact { he with
      writer := by simp [hw]
      dead := fun _ => rfl
      serving := by simp
      owned := hacc.owned
      swept := by simp [Swept] }
  | abort hr hw => exact absurd hr he.serving.2
  | swap hr =>
    exact { he with
      dead := fun _ => he.dead (.inl hr)
      serving := by simp
      owned := hacc.owned
      swept := by simp }
  | @sweep _ c taken hr =>
    have hswept : Swept e.reader := .inr ⟨_, hr⟩
    exact { he with
      dead := fun _ => he.dead (.inr hswept)
      serving := by simp
      erasing := hacc.erasing
      owned := hacc.owned
      swept := fun _ => he.swept hswept }
  | forwarder _ hm =>
    refine { he with owned := hacc.owned, swept := fun hs m c hl => ?_ }
    cases hm with
    | accepted hf => exact absurd hl (hempty (by simp [hf]) (by simp [hf]) hs m c)
    | fetched hf hpc => exact absurd hl (hempty (by simp [hf]) (by simp [hf]) hs m c)
    | @gone n hf hl' =>
      have : n = m := by simpa [hf] using he.swept hs m c hl
      subst this
      exact absurd (hl'.symm.trans hl) (by simp)
  | allocate _ hf =>
    exact { he with
      owned := hacc.owned
      swept := fun hs n c hl => absurd hl (hempty (by simp [hf]) (by simp [hf]) hs n c) }
  | @add _ n _ hf =>
    refine { he with erasing := hacc.erasing, owned := hacc.owned, swept := fun hs m d hm => ?_ }
    rcases lookup_insert_eq_some.1 hm with ⟨rfl, rfl⟩ | ⟨-, hm⟩
    · exact .inl rfl
    · exact absurd hm (hempty (by simp [hf]) (by simp [hf]) hs m d)
  | @spawn _ c _ hf =>
    exact { he with
      erasing := hacc.erasing
      owned := hacc.owned
      swept := fun hs n d hl => absurd hl (hempty (by simp [hf]) (by simp [hf]) hs n d) }
  | @forwarderErase _ n c _ hf hl =>
    refine { he with owned := hacc.owned, swept := fun hs m d hm => ?_ }
    obtain ⟨hne, hm⟩ := lookup_erase_eq_some.1 hm
    have : n = m := by simpa [hf] using he.swept hs m d hm
    exact absurd this.symm hne
  | forwarderStore _ hf =>
    exact { he with
      erasing := hacc.erasing
      owned := hacc.owned
      swept := fun hs n d hl => absurd hl (hempty (by simp [hf]) (by simp [hf]) hs n d) }
  | recv hp => exact { he with erasing := hacc.erasing }
  | recvEnd hp => exact { he with erasing := hacc.erasing }
  | exchange hp => exact { he with erasing := hacc.erasing, owned := hacc.owned }
  | pumpErase hp =>
    exact { he with
      erasing := hacc.erasing
      owned := hacc.owned
      swept := fun hs m d hm => he.swept hs m d (lookup_erase_eq_some.1 hm).2 }
  | beat hk => exact { he with }
  | lock hw ha => exact { he with writer := fun _ _ => ha }
  | dropped hw ha hret => exact he.returns (by simp) hret
  | @transmit t f ok e' hw hret =>
    have halive := he.writer t hw
    have hret' := he.returns (fun _ => halive) hret
    exact { hret' with late := by simp [halive, he.late], writer := by simp }
  | others reg => exact { he with }
  | dialed hside => cases hside

/-- The invariants of a server's end hold along every run. -/
theorem torn_of_exec {target : Text} {as : List EndpointAct} {e : Endpoint}
    (h : exec (step .server target) (fresh .server) as = some e) : Tabled .server e ∧ Torn e :=
  exec_invariant (I := fun e => Tabled .server e ∧ Torn e)
    (fun _ _ _ hI hs => ⟨hI.1.step (steps_of_step hs) (by simp), hI.2.step hI.1 (steps_of_step hs)⟩)
    ⟨tabled_fresh .server, torn_fresh⟩ h

/-- **Nothing outlives a session.** Where the handler has returned and the
forwarder has let go of the session, its table is empty, every connection
it ever had is closed, and nothing was written after `Shutdown`. -/
theorem torn_down {target : Text} {as : List EndpointAct} {e : Endpoint}
    (h : exec (step .server target) (fresh .server) as = some e) (hr : e.reader = .finished)
    (hf : e.forwarder = .accepting ∨ e.forwarder = .fetching) :
    e.conns = ∅ ∧ (∀ c < e.added, e.closed c = true) ∧ e.late = [] := by
  obtain ⟨-, he⟩ := torn_of_exec h
  have hempty : ∀ n, e.conns.lookup n = none := by
    intro n
    rw [Option.eq_none_iff_forall_ne_some]
    intro c hl
    rcases he.swept (.inl hr) n c hl with h | h <;> rcases hf with hf | hf <;>
      exact absurd (hf.symm.trans h) (by simp)
  refine ⟨?_, ?_, he.late⟩
  · refine AList.ext (List.eq_nil_iff_forall_not_mem.2 fun entry hentry => ?_)
    exact absurd (AList.mem_lookup_iff.2 hentry) (by simp [hempty])
  · intro c hc
    cases he.owned c hc with
    | closed h => exact h
    | tabled h => exact absurd h (by simp [hempty])
    | storing h => exact absurd (hr.symm.trans h) (by simp)
    | taken h _ => exact absurd (hr.symm.trans h) (by simp)
    | forwarder h =>
      rcases hf with hf | hf <;> exact absurd (hf.symm.trans h) (by simp)

/-- A session ends while the forwarder is about to add a connection to it. -/
def lateForwarder : List EndpointAct :=
  [.read (some (.register "edge-1".toList)), .reader false, .reader false, .lock .reader,
    .transmit .reader true, .forwarder, .forwarder, .forwarder,
    .read none, .reader false, .reader false, .reader false, .reader false,
    .forwarder, .lock .forwarder, .forwarder, .forwarder]

theorem torn_down_lateForwarder :
    ∃ e, exec (step .server "edge-1".toList) (fresh .server) lateForwarder = some e ∧
      e.reader = .finished ∧ e.forwarder = .accepting ∧ e.added = 1 ∧
      e.conns = ∅ ∧ (∀ c < e.added, e.closed c = true) ∧ e.late = [] := by
  have hrun : (exec (step .server "edge-1".toList) (fresh .server) lateForwarder).any (fun e =>
      decide (e.reader = .finished ∧ e.forwarder = .accepting ∧ e.added = 1)) = true := by
    decide +kernel
  obtain ⟨e, he, hfacts⟩ := (Option.any_eq_true _ _).1 hrun
  obtain ⟨hr, hf, hadded⟩ := of_decide_eq_true hfacts
  exact ⟨e, he, hr, hf, hadded, torn_down he hr (.inl hf)⟩

end Endpoint

end ZeroTouch
