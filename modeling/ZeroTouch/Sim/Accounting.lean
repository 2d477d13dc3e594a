import ZeroTouch.Gnmi.Secrecy
import ZeroTouch.Sim.Server
/-!
# A row for every requested path

`MemGnmiSink` of `zt_sim.cpp`, which states the contract of the sinks,
answers every requested path with a row of its own: a value, a denial or
`not found`. `LocalGnmiSink` has a row for each denied path and one for
each update the server returns, and never compares the two lists. So a
path the server found nothing for, beside one it found, leaves no row and
no error.
-/

namespace ZeroTouch

open GnmiTree (AtOrUnder)

/-- **Every requested path is accounted for**: some row is for it or for
something under it. -/
def Accounted (xpaths : List Text) (rows : List GnmiPathResult) : Prop :=
  ∀ xp ∈ xpaths, ∃ row ∈ rows, AtOrUnder xp row.xpath

/-! ## The in-memory sink -/

namespace MemGnmiSink

/-- The row of one requested path. -/
def row (tree : Std.ExtTreeMap Text Text) (xp : Text) : GnmiPathResult :=
  if isSensitivePath xp defaultDenyTokens then deniedRow xp
  else
    match tree[xp]? with
    | none => ⟨xp, [], "not found".toList⟩
    | some value => ⟨xp, value, []⟩

/-- **`MemGnmiSink::get`.** -/
def get (tree : Std.ExtTreeMap Text Text) (xpaths : List Text) : GnmiResult :=
  { ok := true, grpcStatus := 0, paths := xpaths.map (row tree) }

theorem row_xpath (tree : Std.ExtTreeMap Text Text) (xp : Text) : (row tree xp).xpath = xp := by
  unfold row
  split
  · rfl
  · split <;> rfl

theorem accounted (tree : Std.ExtTreeMap Text Text) (xpaths : List Text) :
    Accounted xpaths (get tree xpaths).paths := by
  intro xp hxp
  exact ⟨row tree xp, List.mem_map_of_mem hxp, .inl (row_xpath tree xp)⟩

end MemGnmiSink

/-! ## The local sink -/

namespace LocalGnmiSink

variable (G : GnmiUtil) (cfg : LocalSinkConfig)

/-- The server answered the request for these paths with `resp`. -/
def Answered (call : GetRequest → RpcResponse GetResponse) (xpaths : List Text)
    (resp : GetResponse) : Prop :=
  let r := call ⟨cfg.getRole, (asked cfg xpaths).map G.parseYangPath⟩
  r.grpcStatus = 0 ∧ r.body = some resp

/-- The response returns something at the path or under it. -/
def Returned (resp : GetResponse) (xp : Text) : Prop :=
  ∃ n ∈ resp.notification, ∃ u ∈ n.update, AtOrUnder xp (G.pathToString u.path)

/-- A sensitive path was requested along with this one, under it. -/
def DeniedUnder (xpaths : List Text) (xp : Text) : Prop :=
  ∃ xp' ∈ xpaths, isSensitivePath xp' cfg.deny = true ∧ AtOrUnder xp xp'

theorem updateRow_xpath (u : GnmiUpdate) :
    (updateRow G cfg u).xpath = G.pathToString u.path := by
  simp only [updateRow]
  split <;> rfl

theorem exists_mem_responseRows {resp : GetResponse} {xp : Text} :
    (∃ row ∈ responseRows G cfg resp, AtOrUnder xp row.xpath) ↔ Returned G resp xp := by
  simp only [responseRows, Returned, List.mem_flatMap, List.mem_map]
  constructor
  · rintro ⟨-, ⟨n, hn, u, hu, rfl⟩, hat⟩
    rw [updateRow_xpath] at hat
    exact ⟨n, hn, u, hu, hat⟩
  · rintro ⟨n, hn, u, hu, hat⟩
    exact ⟨_, ⟨n, hn, u, hu, rfl⟩, by rwa [updateRow_xpath]⟩

theorem exists_mem_deniedRows {xpaths : List Text} {xp : Text} :
    (∃ row ∈ deniedRows cfg xpaths, AtOrUnder xp row.xpath) ↔ DeniedUnder cfg xpaths xp := by
  simp only [deniedRows, DeniedUnder, List.mem_map, List.mem_filter]
  constructor
  · rintro ⟨-, ⟨xp', ⟨hmem, hsens⟩, rfl⟩, hat⟩
    exact ⟨xp', hmem, hsens, hat⟩
  · rintro ⟨xp', hmem, hsens, hat⟩
    exact ⟨_, ⟨xp', ⟨hmem, hsens⟩, rfl⟩, hat⟩

/-- A sensitive path has a row of its own, so the others decide. -/
theorem accounted_iff {xpaths : List Text} {rows : List GnmiPathResult} :
    Accounted xpaths (deniedRows cfg xpaths ++ rows) ↔
      ∀ xp ∈ asked cfg xpaths,
        (∃ row ∈ rows, AtOrUnder xp row.xpath) ∨ DeniedUnder cfg xpaths xp := by
  have hrows : ∀ xp, (∃ row ∈ deniedRows cfg xpaths ++ rows, AtOrUnder xp row.xpath) ↔
      (∃ row ∈ rows, AtOrUnder xp row.xpath) ∨ DeniedUnder cfg xpaths xp := by
    intro xp
    rw [← exists_mem_deniedRows, or_comm]
    simp only [List.mem_append, or_and_right, exists_or]
  simp only [Accounted, hrows, asked, List.mem_filter, Bool.not_eq_true']
  constructor
  · rintro h xp ⟨hxp, -⟩
    exact h xp hxp
  · intro h xp hxp
    by_cases hsens : isSensitivePath xp cfg.deny = true
    · exact .inr ⟨xp, hxp, hsens, .inl rfl⟩
    · exact h xp ⟨hxp, by simpa using hsens⟩

/-- Where nothing is left to ask for, the rows are the denied ones. -/
theorem get_of_asked_nil {call : GetRequest → RpcResponse GetResponse} {xpaths : List Text}
    (h : asked cfg xpaths = []) : (get G cfg call xpaths).paths = deniedRows cfg xpaths := by
  simp only [get, h, List.isEmpty_nil, if_true]

theorem get_of_answered {call : GetRequest → RpcResponse GetResponse} {xpaths : List Text}
    {resp : GetResponse} (hne : asked cfg xpaths ≠ []) (h : Answered G cfg call xpaths resp) :
    (get G cfg call xpaths).ok = true ∧
      (get G cfg call xpaths).paths = deniedRows cfg xpaths ++ responseRows G cfg resp := by
  obtain ⟨hstatus, hbody⟩ := h
  simp only [get, List.isEmpty_iff, hne, if_false, hstatus, hbody, ne_eq, not_true_eq_false,
    and_self]

theorem answered_of_ok {call : GetRequest → RpcResponse GetResponse} {xpaths : List Text}
    (hne : asked cfg xpaths ≠ []) (hok : (get G cfg call xpaths).ok = true) :
    ∃ resp, Answered G cfg call xpaths resp := by
  simp only [get, List.isEmpty_iff, hne, if_false] at hok
  split at hok
  · cases hok
  · next hstatus =>
    split at hok
    · cases hok
    · next resp hbody => exact ⟨resp, not_not.1 hstatus, hbody⟩

/-- **When every requested path is accounted for** by an ok get: exactly
where, for each path that was asked for, the server returned something at
it or under it, or a denied path was requested under it. -/
theorem get_accounted_iff (call : GetRequest → RpcResponse GetResponse) (xpaths : List Text) :
    ((get G cfg call xpaths).ok = true → Accounted xpaths (get G cfg call xpaths).paths) ↔
      ∀ resp, Answered G cfg call xpaths resp →
        ∀ xp ∈ asked cfg xpaths, Returned G resp xp ∨ DeniedUnder cfg xpaths xp := by
  by_cases hne : asked cfg xpaths = []
  · refine iff_of_true (fun _ => ?_) fun resp _ xp hxp => ?_
    · rw [get_of_asked_nil G cfg hne, ← List.append_nil (deniedRows cfg xpaths), accounted_iff, hne]
      simp
    · rw [hne] at hxp
      cases hxp
  · constructor
    · intro h resp hans
      obtain ⟨hok, hpaths⟩ := get_of_answered G cfg hne hans
      have hacc := h hok
      rw [hpaths, accounted_iff] at hacc
      simpa only [exists_mem_responseRows] using hacc
    · intro h hok
      obtain ⟨resp, hans⟩ := answered_of_ok G cfg hne hok
      rw [(get_of_answered G cfg hne hans).2, accounted_iff]
      simpa only [exists_mem_responseRows] using h resp hans

end LocalGnmiSink

namespace GnmiServer

/-- **A path beside one that is there goes missing**: of `/a` and `/b`,
with only `/a` in the tree, the reply is ok and has one row, and none for
`/b`. -/
theorem not_accounted_partial_miss :
    ¬ ((sinkGet compactUtil {} (GnmiTree.set ⟨∅⟩ "/a".toList "1".toList)
          ["/a".toList, "/b".toList]).ok = true →
        Accounted ["/a".toList, "/b".toList]
          (sinkGet compactUtil {} (GnmiTree.set ⟨∅⟩ "/a".toList "1".toList)
            ["/a".toList, "/b".toList]).paths) := by
  have hget : sinkGet compactUtil {} (GnmiTree.set ⟨∅⟩ "/a".toList "1".toList)
      ["/a".toList, "/b".toList] =
      { ok := true, grpcStatus := 0, paths := [⟨"/a".toList, "1".toList, []⟩] } := by
    decide +kernel
  rw [hget]
  intro h
  obtain ⟨row, hrow, hat⟩ := h rfl "/b".toList (by simp)
  obtain rfl := List.mem_singleton.1 hrow
  exact absurd hat (by unfold GnmiTree.AtOrUnder; decide)

end GnmiServer

end ZeroTouch
