import DeviceMessaging.WorkLedger

namespace DeviceMessaging

open Effect

/-- The token a send was registered under. -/
def Task.token (t : Task) : Option Nat :=
  match t with
  | .send _ _ token => some token
  | _ => none

def Handler.token (h : Handler) : Option Nat :=
  match h with
  | .task t => t.token
  | _ => none

/-- The tokens of the sends that are due or were started. -/
def sendTokens (x : Process) : List Nat :=
  x.world.tasks.filterMap Task.token ++ (x.threads.map Prod.fst).filterMap Handler.token

/-- Every send has a token of its own, issued before. -/
structure TokensApart (x : Process) : Prop where
  nodup : (sendTokens x).Nodup
  issued : ∀ token ∈ sendTokens x, token < x.world.nextToken

variable {svc : Service} {x y : Process} {ledger : WorkLedger}
  {a : Choice Handler Oracle Disturbance} {token : Nat}

theorem tokensApart_initial : TokensApart Process.initial where
  nodup := List.nodup_nil
  issued _ h := by cases h

theorem TokensApart.perm (hx : TokensApart x) (hp : (sendTokens x).Perm (sendTokens y))
    (hn : y.world.nextToken = x.world.nextToken) : TokensApart y where
  nodup := hp.nodup_iff.mp hx.nodup
  issued token ht := by
    rw [hn]
    exact hx.issued token (hp.mem_iff.mpr ht)

theorem handlers_set {i : Nat} {h : Handler} {p q : Engine Unit}
    (ht : x.threads[i]? = some (h, p)) :
    (x.threads.set i (h, q)).map Prod.fst = x.threads.map Prod.fst := by
  apply List.ext_getElem?
  intro j
  rw [List.getElem?_map, List.getElem?_map]
  by_cases hij : i = j
  · subst hij
    rw [List.getElem?_set_self (List.getElem?_eq_some_iff.mp ht).1, ht]
    rfl
  · rw [List.getElem?_set_ne hij]

/-- A send that starts takes its token from the tasks to the handlers. -/
theorem sendTokens_start {t : Task} {w : World} (hmem : t ∈ x.world.tasks)
    (hw : w = { x.world with tasks := x.world.tasks.erase t }) (p : Engine Unit) :
    (sendTokens x).Perm (sendTokens ⟨x.threads ++ [(.task t, p)], w⟩) := by
  have htasks : (x.world.tasks.filterMap Task.token).Perm
      (t.token.toList ++ (x.world.tasks.erase t).filterMap Task.token) := by
    refine ((List.perm_cons_erase hmem).filterMap Task.token).trans ?_
    rw [List.filterMap_cons]
    cases t.token <;> exact .refl _
  have hthreads : ((x.threads ++ [(Handler.task t, p)]).map Prod.fst).filterMap Handler.token =
      (x.threads.map Prod.fst).filterMap Handler.token ++ t.token.toList := by
    rw [List.map_append, List.filterMap_append]
    simp only [List.map_cons, List.map_nil, List.filterMap_cons, List.filterMap_nil]
    rw [show (Handler.task t).token = t.token from rfl]
    cases t.token <;> rfl
  subst hw
  unfold sendTokens
  rw [hthreads]
  refine (htasks.append_right _).trans ?_
  rw [List.append_assoc, ← List.append_assoc _ _ t.token.toList]
  exact List.perm_append_comm

theorem sendTokens_plain {h : Handler} {p : Engine Unit} (hh : h.token = none) :
    sendTokens ⟨x.threads ++ [(h, p)], x.world⟩ = sendTokens x := by
  unfold sendTokens
  simp only [List.map_append, List.map_cons, List.map_nil, List.filterMap_append,
    List.filterMap_cons, hh, List.filterMap_nil, List.append_nil]

/-- A send that is registered gets the next token. -/
theorem TokensApart.track (hx : TokensApart x) {p : PluginId} {m : DeviceMessage}
    (hw : y.world = x.world.track p m) (ht : y.threads.map Prod.fst = x.threads.map Prod.fst) :
    TokensApart y := by
  have hperm : (sendTokens y).Perm (x.world.nextToken :: sendTokens x) := by
    unfold sendTokens
    rw [ht, hw]
    have htasks : (x.world.track p m).tasks.filterMap Task.token =
        x.world.tasks.filterMap Task.token ++ [x.world.nextToken] := by
      unfold World.track
      rw [List.filterMap_append]
      rfl
    rw [htasks, List.append_assoc]
    exact List.perm_middle
  have hnext : y.world.nextToken = x.world.nextToken + 1 := by rw [hw]; rfl
  refine ⟨hperm.nodup_iff.mpr (List.nodup_cons.mpr ⟨fun hmem => ?_, hx.nodup⟩), fun token ht => ?_⟩
  · exact absurd (hx.issued _ hmem) (Nat.lt_irrefl _)
  · rw [hnext]
    rcases List.mem_cons.mp (hperm.mem_iff.mp ht) with rfl | ht
    · exact Nat.lt_succ_self _
    · exact Nat.lt_succ_of_lt (hx.issued token ht)

theorem TokensApart.next {ledger' : WorkLedger} (hx : TokensApart x) (hw : Watched svc x ledger)
    (hs : WorkStep svc x ledger a y ledger') : TokensApart y := by
  cases hs with
  | start h w hstart =>
    rcases startHandler_cases hstart with ⟨t, hmem, rfl, he⟩ | ⟨hne, rfl⟩
    · exact hx.perm (sendTokens_start hmem he _) (by rw [he])
    · have hh : h.token = none := by
        cases h with
        | task t => exact absurd rfl (hne t)
        | _ => rfl
      exact hx.perm (.of_eq (sendTokens_plain hh).symm) rfl
  | @turn i o h c k r w ht ho hr =>
    have hthreads : ((x.threads.set i (h, k r)).map Prod.fst) = x.threads.map Prod.fst :=
      handlers_set ht
    have hsame : w.tasks.filterMap Task.token = x.world.tasks.filterMap Task.token →
        w.nextToken = x.world.nextToken → TokensApart ⟨x.threads.set i (h, k r), w⟩ := by
      intro htasks hnext
      refine hx.perm (.of_eq ?_) hnext
      unfold sendTokens
      rw [hthreads, htasks]
    have hallows := hw.allows (Config.waiting_of_get ht)
    rcases respond_memory hr with ⟨p, m, rfl, he⟩ | ⟨id, token, rfl, he⟩ |
      ⟨-, hnext, he | ⟨t, rfl, he⟩⟩
    · exact hx.track he hthreads
    · obtain ⟨htasks, hnext⟩ := settle_tasks x.world id token
      exact hsame (by rw [he, htasks]) (by rw [he, hnext])
    · exact hsame (by rw [he]) hnext
    · refine hsame ?_ hnext
      have htoken : t.token = none := by
        cases t with
        | send p m token => exact absurd rfl (hallows.2 p m token)
        | _ => rfl
      rw [he, List.filterMap_append]
      simp [htoken]
  | elapse ms => exact ⟨hx.nodup, hx.issued⟩

/-- Two handlers of one token are one. -/
theorem TokensApart.threads (hx : TokensApart x) {i j : Nat} {t t' : Handler × Engine Unit}
    (hi : x.threads[i]? = some t) (hj : x.threads[j]? = some t') (ht : t.1.token = some token)
    (ht' : t'.1.token = some token) : i = j := by
  have hpair := List.pairwise_filterMap.mp (List.nodup_append.mp hx.nodup).2.1
  have hlt : ∀ {k : Nat} {t : Handler × Engine Unit}, x.threads[k]? = some t →
      ∃ hk : k < (x.threads.map Prod.fst).length, (x.threads.map Prod.fst)[k] = t.1 := by
    intro k t hk
    obtain ⟨hk, he⟩ := List.getElem?_eq_some_iff.mp hk
    refine ⟨by rwa [List.length_map], ?_⟩
    rw [List.getElem_map, he]
  obtain ⟨hi', hei⟩ := hlt hi
  obtain ⟨hj', hej⟩ := hlt hj
  rw [List.pairwise_iff_getElem] at hpair
  rcases Nat.lt_trichotomy i j with hij | hij | hij
  · exact absurd rfl (hpair i j hi' hj' hij token (hei ▸ ht) token (hej ▸ ht'))
  · exact hij
  · exact absurd rfl (hpair j i hj' hi' hij token (hej ▸ ht') token (hei ▸ ht))

/-- A send that is due has not started. -/
theorem TokensApart.tasks (hx : TokensApart x) {i : Nat} {t : Handler × Engine Unit} {task : Task}
    (hi : x.threads[i]? = some t) (htask : task ∈ x.world.tasks) (ht : t.1.token = some token) :
    task.token ≠ some token := by
  intro ht'
  have hdisjoint := (List.nodup_append.mp hx.nodup).2.2
  have hleft : token ∈ x.world.tasks.filterMap Task.token :=
    List.mem_filterMap.mpr ⟨task, htask, ht'⟩
  have hright : token ∈ (x.threads.map Prod.fst).filterMap Handler.token :=
    List.mem_filterMap.mpr ⟨t.1, List.mem_map_of_mem (List.mem_of_getElem? hi), ht⟩
  exact hdisjoint token hleft token hright rfl

theorem TokensApart.thread_issued (hx : TokensApart x) {i : Nat} {t : Handler × Engine Unit}
    (hi : x.threads[i]? = some t) (ht : t.1.token = some token) : token < x.world.nextToken := by
  refine hx.issued token (List.mem_append_right _ ?_)
  exact List.mem_filterMap.mpr ⟨t.1, List.mem_map_of_mem (List.mem_of_getElem? hi), ht⟩

end DeviceMessaging
