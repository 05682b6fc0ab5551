import Cloudx.Local.BrokerLeases

/-! # Leases of shells and of the broker

Any number of shells run side by side with the broker, which may end and start again at any time, with
clients that are no shells, and with connections that are lost or answered too late. `Sound` is what holds
of the broker, the calls and the variables of the shells in every state of such a run. -/

namespace Cloudx.Local.LeaseRuns

open Cloudx.Lib.Fault Cloudx.Lib.Threads Cloudx.Lib.Threads.Thread Cloudx.Lib.Reports Cloudx.Lib.Shell
open Cloudx.Python.Text Cloudx.Python.Value
open Cloudx.Local.Broker Cloudx.Local.BrokerRuns Cloudx.Local.ShellModes
open Cloudx.Local.BrokerClient Cloudx.Local.LeaseRules Cloudx.Local.BrokerLeases

abbrev Event := BrokerClient.Event

variable {ids : Identifiers} {py : Py} {host : Host} {first s s' : Machine}
  {history : List (Source × Event)}

/-! ### What happens around the shells -/

variable (ids py) in
/-- A request that asks for no lease in the name of a shell. -/
def Foreign (d : Dict) : Prop :=
  Python.Value.get d (lit "command") = .str (lit "acquire") →
    ∀ (host : Host) r, acquireFields py host d = .ok r → ∀ n, r.ownerPid ≠ ids.pid n

variable (ids) in
/-- The broker picks a port as `choose_public_listener` does, and a shell is alive until it exits. -/
def Sees (host : Host) (s : Machine) : Prop :=
  (∀ port, host.publicPort = some port → 20000 ≤ port ∧ port < 30000) ∧
    ∀ (n : ℕ) (x : Shell), s.shells[n]? = some x → host.live (ids.pid n) = x.isOpen

variable (ids py) in
/-- The steps around the shells: another client calls, a connection is lost, the broker serves a call or
does the other work of its loop, it ends, and it starts. -/
inductive Outside : Machine → Machine → Option Event → Prop where
  | called {s : Machine} {d : Dict} (h : Foreign ids py d) : Outside s (called s d) none
  | lost {s : Machine} {k : ℕ} {c : Call} (hcall : s.calls[k]? = some c) (hwaiting : c.reply = .waiting) :
    Outside s { s with calls := s.calls.set k (c.become .lost) } none
  | served {s : Machine} {k : ℕ} {c : Call} {srv srv' : Server} {host : Host} {document : Dict}
    (reply : Reply) (hserver : s.server = some srv) (hrunning : srv.stopRequested = false)
    (hcall : s.calls[k]? = some c) (hwaiting : c.reply = .waiting) (hsees : Sees ids host s)
    (hserve : serveRequest py host srv c.request = (srv', .ok document))
    (hreply : reply = .lost ∨ reply = .answered document) :
    Outside s { s with server := some srv', calls := s.calls.set k (c.become reply) }
      (some (.served k c.request))
  | worked {s : Machine} {srv : Server} {host : Host} {e : BrokerRuns.Event} (hserver : s.server = some srv)
    (hrunning : srv.stopRequested = false) (hsees : Sees ids host s) (he : ∀ d, e ≠ .request d) :
    Outside s { s with server := some (after py host srv e) } none
  | ended {s : Machine} (hserver : s.server.isSome) :
    Outside s { s with server := none, calls := s.calls.map Call.abort } (some .ended)
  | started {s : Machine} (now : ℚ) (hserver : s.server = none) :
    Outside s { s with server := some (newServer now) } none

/-- The states that any number of shells reach, from a machine without any. -/
def Reaches (ids : Identifiers) (py : Py) (host : Host) (home : Str) :
    System Machine Event Raised Unit → Prop :=
  Reachable (Outside ids py) (fun x => ∃ parent env commands, leaseOf env = [] ∧
    x = session ids py host home parent env commands) ⟨none, [], []⟩

/-- The events of a history. -/
def events (history : List (Source × Event)) : List Event := history.map Prod.snd

theorem mem_events {who : Source} {e : Event} (h : (who, e) ∈ history) : e ∈ events history :=
  List.mem_map_of_mem h

theorem mem_own {who : Source} {e : Event} : e ∈ own who history ↔ (who, e) ∈ history := by
  constructor
  · intro h
    obtain ⟨⟨w, e'⟩, hmem, rfl⟩ := List.mem_map.mp h
    obtain ⟨hin, hw⟩ := List.mem_filter.mp hmem
    obtain rfl : w = who := of_decide_eq_true hw
    exact hin
  · exact fun h => List.mem_map.mpr ⟨_, List.mem_filter.mpr ⟨h, decide_eq_true rfl⟩, rfl⟩

/-! ### What is known of the calls -/

variable (ids) in
/-- The call of a shell for a lease. -/
def AskedBy (s : Machine) (n k : ℕ) (reply : Reply) : Prop :=
  ∃ spec, s.calls[k]? = some ⟨acquireDocument (ids.uuid4 k) (ids.pid n) spec, reply⟩

variable (ids) in
/-- No shell has the lease. -/
def Free (s : Machine) (lease : Str) : Prop :=
  ∀ srv l n, s.server = some srv → (lease, l) ∈ srv.leases → l.ownerPid ≠ ids.pid n

variable (ids) in
/-- A lease that was asked for, by a call that does not wait any more. -/
def Known (s : Machine) (lease : Str) : Prop :=
  lease = [] ∨ ∃ (k : ℕ) (c : Call), lease = ids.uuid4 k ∧ s.calls[k]? = some c ∧ c.reply ≠ .waiting

variable (ids) in
/-- An answer that grants the lease of a call. -/
def Grants (k port : ℕ) (d : Dict) : Prop :=
  Python.Value.get d (lit "leaseId") = .str (ids.uuid4 k) ∧
    Python.Value.get d (lit "publicPort") = .int port ∧ 20000 ≤ port ∧ port < 30000

variable (ids) in
/-- The lease and the port in some variables were granted together. -/
def Believes (s : Machine) (env : Variables) : Prop :=
  leaseOf env = [] ∨ ∃ k n d port, leaseOf env = ids.uuid4 k ∧ AskedBy ids s n k (.answered d) ∧
    accepted d = true ∧ Grants ids k port d ∧
      env (lit "CLOUDX_MODE_BROKER_PORT") = some (decimal port)

variable (ids) in
/-- What an event says of the state ever after. -/
def Fact (s : Machine) : Event → Prop
  | .asked n k => ∃ reply, AskedBy ids s n k reply
  | .refused k => ∃ q d, s.calls[k]? = some ⟨q, .answered d⟩ ∧ accepted d = false
  | .granted k d => accepted d = true ∧ ∃ n, AskedBy ids s n k (.answered d)
  | .began _ lease => Known ids s lease
  | .releasing lease k => Known ids s lease ∧ ∃ reply, s.calls[k]? = some ⟨releaseDocument lease, reply⟩ ∧
      ∀ d, reply = .answered d → Free ids s lease
  | .released lease => Known ids s lease ∧ Free ids s lease
  | _ => True

variable (ids py) in
/-- What holds of the broker, the calls and the variables in every state. -/
structure Sound (history : List (Source × Event)) (s : Machine) : Prop where
  run : ∀ srv, s.server = some srv → ∃ now under, Run py now srv under
  ports : ∀ srv relay, s.server = some srv → srv.relay = some relay →
    20000 ≤ relay.publicPort ∧ relay.publicPort < 30000
  calls : ∀ (k : ℕ) (c : Call), s.calls[k]? = some c → Foreign ids py c.request ∨
    ∃ n spec i, c.request = acquireDocument (ids.uuid4 k) (ids.pid n) spec ∧
      (some i, .asked n k) ∈ history
  answers : ∀ n k d, AskedBy ids s n k (.answered d) → accepted d = true → ∃ port, Grants ids k port d
  leases : ∀ srv id l n, s.server = some srv → (id, l) ∈ srv.leases → l.ownerPid = ids.pid n →
    ∃ k reply, id = ids.uuid4 k ∧ AskedBy ids s n k reply ∧ reply ≠ .waiting ∧
      ∀ d, reply = .answered d → accepted d = true
  shells : ∀ (n : ℕ) (x : Shell), s.shells[n]? = some x → Believes ids s x.env
  facts : ∀ e ∈ events history, Fact ids s e

/-! ### What stays -/

variable (ids) in
/-- A step leaves what was asked for, and what has come of it, as it is. -/
structure Moves (s s' : Machine) : Prop where
  calls : ∀ (k : ℕ) (c : Call), s.calls[k]? = some c →
    ∃ c', s'.calls[k]? = some c' ∧ c'.request = c.request ∧ (c.reply ≠ .waiting → c' = c)
  free : ∀ lease, Known ids s lease → Free ids s lease → Free ids s' lease
  releases : ∀ (k : ℕ) lease d, s.calls[k]? = some ⟨releaseDocument lease, .waiting⟩ →
    s'.calls[k]? = some ⟨releaseDocument lease, .answered d⟩ → Free ids s' lease

theorem Moves.answered (h : Moves ids s s') {k : ℕ} {q : Dict} {reply : Reply}
    (hcall : s.calls[k]? = some ⟨q, reply⟩) (hreply : reply ≠ .waiting) :
    s'.calls[k]? = some ⟨q, reply⟩ := by
  obtain ⟨c', hc', -, hsame⟩ := h.calls k _ hcall
  rw [hc', hsame hreply]

theorem Moves.asked (h : Moves ids s s') {n k : ℕ} {reply : Reply} (hasked : AskedBy ids s n k reply)
    (hreply : reply ≠ .waiting) : AskedBy ids s' n k reply := by
  obtain ⟨spec, hcall⟩ := hasked
  exact ⟨spec, h.answered hcall hreply⟩

theorem Moves.known (h : Moves ids s s') {lease : Str} (hknown : Known ids s lease) :
    Known ids s' lease := by
  refine hknown.imp_right ?_
  rintro ⟨k, ⟨q, reply⟩, hlease, hcall, hreply⟩
  exact ⟨k, ⟨q, reply⟩, hlease, h.answered hcall hreply, hreply⟩

theorem Moves.believes (h : Moves ids s s') {env : Variables} (hb : Believes ids s env) :
    Believes ids s' env := by
  refine hb.imp_right ?_
  rintro ⟨k, n, d, port, hlease, hasked, hrest⟩
  exact ⟨k, n, d, port, hlease, h.asked hasked nofun, hrest⟩

/-- **What an event says stays true.** -/
theorem Moves.fact (h : Moves ids s s') {e : Event} (he : Fact ids s e) : Fact ids s' e := by
  cases e with
  | asked n k =>
    obtain ⟨reply, spec, hcall⟩ := he
    obtain ⟨⟨q, reply'⟩, hc', hq, -⟩ := h.calls k _ hcall
    obtain rfl : q = acquireDocument (ids.uuid4 k) (ids.pid n) spec := hq
    exact ⟨reply', spec, hc'⟩
  | refused k =>
    obtain ⟨q, d, hcall, hd⟩ := he
    exact ⟨q, d, h.answered hcall nofun, hd⟩
  | granted k d =>
    obtain ⟨hd, n, hasked⟩ := he
    exact ⟨hd, n, h.asked hasked nofun⟩
  | began n lease => exact h.known he
  | releasing lease k =>
    obtain ⟨hknown, reply, hcall, hfree⟩ := he
    obtain ⟨⟨q, reply'⟩, hc', hq, hsame⟩ := h.calls k _ hcall
    obtain rfl : q = releaseDocument lease := hq
    refine ⟨h.known hknown, reply', hc', ?_⟩
    rintro d rfl
    by_cases hreply : reply = .waiting
    · subst hreply
      exact h.releases k lease d hcall hc'
    · have hreply' := congrArg Call.reply (hsame hreply)
      exact h.free lease hknown (hfree d hreply'.symm)
  | released lease => exact ⟨h.known he.1, h.free lease he.1 he.2⟩
  | opened _ => trivial
  | gaveUp _ => trivial
  | evaluated _ _ => trivial
  | failed _ => trivial
  | closed _ => trivial
  | served _ _ => trivial
  | ended => trivial

/-- The shells do not matter. -/
theorem moves_shells (s : Machine) (shells : List Shell) : Moves ids s { s with shells } where
  calls _ c h := ⟨c, h, rfl, fun _ => rfl⟩
  free _ _ h := h
  releases k lease d h h' := by cases h.symm.trans h'

theorem getElem_called {d : Dict} {k : ℕ} {c : Call} (h : s.calls[k]? = some c) :
    (called s d).calls[k]? = some c := by
  rw [called, List.getElem?_append_left (List.getElem?_eq_some_iff.mp h).1]
  exact h

theorem moves_called (s : Machine) (d : Dict) : Moves ids s (called s d) where
  calls _ c h := ⟨c, getElem_called h, rfl, fun _ => rfl⟩
  free _ _ h := h
  releases k lease d h h' := by cases (getElem_called h).symm.trans h'

/-! ### The steps of the shells -/

theorem getElem_called_inv {d : Dict} {k : ℕ} {c : Call} (h : (called s d).calls[k]? = some c) :
    s.calls[k]? = some c ∨ k = s.calls.length ∧ c = ⟨d, .waiting⟩ := by
  rw [called, List.getElem?_append] at h
  split_ifs at h with hk
  · exact .inl h
  · have hk' : k - s.calls.length = 0 := by
      have := (List.getElem?_eq_some_iff.mp h).1
      simpa using this
    rw [hk'] at h
    exact .inr ⟨by omega, (Option.some.inj h).symm⟩

theorem getElem_length (s : Machine) (d : Dict) :
    (called s d).calls[s.calls.length]? = some ⟨d, .waiting⟩ := by
  rw [called]
  simp

/-- The facts after a step. -/
theorem Sound.later (h : Sound ids py history s) (hmoves : Moves ids s s') {who : Source}
    {event : Option Event} (hevent : ∀ e, event = some e → Fact ids s' e) :
    ∀ e ∈ events (history ++ report who event), Fact ids s' e := by
  intro e he
  rw [events, List.map_append, List.mem_append] at he
  rcases he with he | he
  · exact hmoves.fact (h.facts e he)
  · rcases event with _ | e'
    · cases he
    · exact List.mem_singleton.mp he ▸ hevent e' rfl

theorem Sound.request (h : Sound ids py history s) {k : ℕ} {c : Call} (hc : s.calls[k]? = some c)
    (more : List (Source × Event)) : Foreign ids py c.request ∨
      ∃ n spec i, c.request = acquireDocument (ids.uuid4 k) (ids.pid n) spec ∧
        (some i, .asked n k) ∈ history ++ more := by
  rcases h.calls k c hc with hforeign | ⟨n, spec, i, hq, hmem⟩
  · exact .inl hforeign
  · exact .inr ⟨n, spec, i, hq, List.mem_append_left more hmem⟩

/-- A step that changes at most the shells. -/
theorem Sound.shelled (h : Sound ids py history s) {shells : List Shell} {who : Source}
    {event : Option Event}
    (hshells : ∀ (n : ℕ) (x : Shell), shells[n]? = some x → Believes ids s x.env)
    (hevent : ∀ e, event = some e → Fact ids { s with shells } e) :
    Sound ids py (history ++ report who event) { s with shells } where
  run := h.run
  ports := h.ports
  calls _ _ hc := h.request hc _
  answers := h.answers
  leases := h.leases
  shells := hshells
  facts := h.later (moves_shells s shells) hevent

/-- A call. -/
theorem Sound.called (h : Sound ids py history s) {d : Dict} {who : Source} {event : Option Event}
    (hd : Foreign ids py d ∨ ∃ n spec i, d = acquireDocument (ids.uuid4 s.calls.length) (ids.pid n) spec ∧
      (some i, .asked n s.calls.length) ∈ history ++ report who event)
    (hevent : ∀ e, event = some e → Fact ids (called s d) e) :
    Sound ids py (history ++ report who event) (called s d) where
  run := h.run
  ports := h.ports
  calls k c hc := by
    rcases getElem_called_inv hc with hc | ⟨rfl, rfl⟩
    · exact h.request hc _
    · exact hd
  answers n k d' hasked haccepted := by
    obtain ⟨spec, hc⟩ := hasked
    rcases getElem_called_inv hc with hc | ⟨-, hc⟩
    · exact h.answers n k d' ⟨spec, hc⟩ haccepted
    · cases congrArg Call.reply hc
  leases srv id l n hserver hmem howner := by
    obtain ⟨k, reply, hid, hasked, hreply, hok⟩ := h.leases srv id l n hserver hmem howner
    exact ⟨k, reply, hid, (moves_called s d).asked hasked hreply, hreply, hok⟩
  shells n x hx := (moves_called s d).believes (h.shells n x hx)
  facts := h.later (moves_called s d) hevent

theorem Believes.known {env : Variables} (h : Believes ids s env) : Known ids s (leaseOf env) := by
  refine h.imp_right ?_
  rintro ⟨k, n, d, port, hlease, ⟨spec, hcall⟩, -⟩
  exact ⟨k, _, hlease, hcall, nofun⟩

theorem foreign_ping : Foreign ids py pingDocument := fun h => by cases h

theorem foreign_release (lease : Str) : Foreign ids py (releaseDocument lease) := fun h => by cases h

theorem answerOf_some {k : ℕ} {d : Dict} (h : answerOf s k = some d) :
    ∃ q, s.calls[k]? = some ⟨q, .answered d⟩ := by
  unfold answerOf at h
  rcases hcall : s.calls[k]? with _ | ⟨q, reply⟩
  · rw [hcall] at h
    cases h
  · rw [hcall] at h
    cases reply with
    | waiting => cases h
    | answered d' =>
      obtain rfl : d' = d := Option.some.inj h
      exact ⟨q, rfl⟩
    | lost => cases h

/-- The lease of an answer. -/
theorem Grants.lease {k port : ℕ} {d : Dict} (h : Grants ids k port d) :
    leaseText py d = ids.uuid4 k := by
  rw [leaseText, h.1, textOf_str]

/-- The port of an answer. -/
theorem Grants.port {k port : ℕ} {d : Dict} (h : Grants ids k port d) : PortIs host d port := by
  obtain ⟨-, hport, hlow, hhigh⟩ := h
  refine ⟨?_, by omega, by omega⟩
  rw [portOf, hport, intOf_int]

theorem PortIs.unique {d : Dict} {port port' : ℤ} (h : PortIs host d port) (h' : PortIs host d port') :
    port = port' := Except.ok.inj (h.1.symm.trans h'.1)

/-- What was granted. -/
theorem Sound.granted (h : Sound ids py history s) {k : ℕ} {d : Dict}
    (hmem : .granted k d ∈ events history) :
    ∃ n port, AskedBy ids s n k (.answered d) ∧ accepted d = true ∧ Grants ids k port d := by
  obtain ⟨hok, n, hasked⟩ := h.facts _ hmem
  obtain ⟨port, hgrants⟩ := h.answers n k d hasked hok
  exact ⟨n, port, hasked, hok, hgrants⟩

theorem Sound.owned (h : Sound ids py history s) {past : List Event} (hpast : ∀ e ∈ past, e ∈ events history)
    {lease : Str} (howned : Owned py past lease) : Known ids s lease := by
  rcases howned with ⟨n, hmem⟩ | ⟨k, d, hmem, rfl⟩
  · exact h.facts _ (hpast _ hmem)
  · obtain ⟨n, port, ⟨spec, hcall⟩, -, hgrants⟩ := h.granted (hpast _ hmem)
    exact .inr ⟨k, _, hgrants.lease, hcall, nofun⟩

/-- What a command puts into the variables. -/
theorem Sound.puts (h : Sound ids py history s) {past : List Event}
    (hpast : ∀ e ∈ past, e ∈ events history) {lease : Str} {f : Variables → Variables}
    (hputs : Puts py host past lease f) (env : Variables) : Believes ids s (f env) := by
  obtain ⟨hset, hnil | ⟨k, d, port, hmem, hlease, hport, hvariable⟩⟩ := hputs
  · exact .inl ((hset env).trans hnil)
  · obtain ⟨n, port', hasked, hok, hgrants⟩ := h.granted (hpast _ hmem)
    obtain rfl : port = port' := PortIs.unique hport hgrants.port
    refine .inr ⟨k, n, d, port', ?_, hasked, hok, hgrants, hvariable env⟩
    rw [hset env, hlease, hgrants.lease, (ids.uuid4_plain k).1]

/-- A change of one shell. -/
theorem believes_modify {shells : List Shell} {n : ℕ} {g : Shell → Shell}
    (hall : ∀ (m : ℕ) (x : Shell), shells[m]? = some x → Believes ids s x.env)
    (hg : ∀ x, shells[n]? = some x → Believes ids s (g x).env) :
    ∀ (m : ℕ) (x : Shell), (shells.modify n g)[m]? = some x → Believes ids s x.env := by
  intro m x hx
  rw [List.getElem?_modify] at hx
  split_ifs at hx with hnm
  · subst hnm
    obtain ⟨y, hy, rfl⟩ := Option.map_eq_some_iff.mp hx
    exact hg y hy
  · exact hall m x (by simpa using hx)

/-- **What a shell does keeps the invariant.** -/
theorem Sound.access (h : Sound ids py history s) {i : ℕ} {event : Option Event}
    (hrule : SessionRule ids py host (own (some i) history) s s' event) :
    Sound ids py (history ++ report (some i) event) s' := by
  have hpast : ∀ e ∈ own (some i) history, e ∈ events history := fun e he => mem_events (mem_own.mp he)
  have hfact : ∀ e ∈ own (some i) history, Fact ids s e := fun e he => h.facts e (hpast e he)
  have hsame : ∀ event : Option Event, (∀ e, event = some e → Fact ids s e) →
      Sound ids py (history ++ report (some i) event) s := fun _ he => h.shelled h.shells he
  rcases event with _ | event
  · rcases hrule with rfl | rfl
    · exact hsame none nofun
    · exact h.called (.inl foreign_ping) nofun
  cases event with
  | opened n =>
    obtain ⟨-, rfl, env, rfl, henv⟩ := hrule
    refine h.shelled (fun m x hx => ?_) fun e he => by cases he; trivial
    rw [List.getElem?_append] at hx
    split_ifs at hx with hm
    · exact h.shells m x hx
    · obtain rfl : x = ⟨env, true⟩ := List.mem_singleton.mp (List.mem_of_getElem? hx)
      rcases henv with hnil | ⟨m', y, hy, rfl⟩
      · exact .inl hnil
      · exact h.shells m' y hy
  | began n lease =>
    obtain ⟨rfl, -, rfl, -⟩ := hrule
    refine hsame _ fun e he => ?_
    cases he
    show Known ids s' (s'.leaseAt n)
    rw [Machine.leaseAt]
    rcases hx : s'.shells[n]? with _ | x
    · exact .inl rfl
    · exact (h.shells n x hx).known
  | asked n k =>
    obtain ⟨-, -, rfl, spec, rfl⟩ := hrule
    refine h.called (.inr ⟨n, spec, i, rfl, List.mem_append_right _ List.mem_cons_self⟩) fun e he => ?_
    cases he
    exact ⟨_, spec, getElem_length s _⟩
  | granted k d =>
    obtain ⟨rfl, hanswer, hok, n, hasked⟩ := hrule
    refine hsame _ fun e he => ?_
    cases he
    obtain ⟨reply, spec, hcall⟩ := hfact _ hasked
    obtain ⟨q, hq⟩ := answerOf_some hanswer
    obtain ⟨rfl, rfl⟩ := Call.mk.inj (Option.some.inj (hq.symm.trans hcall))
    exact ⟨hok, n, spec, hcall⟩
  | refused k =>
    obtain ⟨rfl, d, hanswer, hno⟩ := hrule
    refine hsame _ fun e he => ?_
    cases he
    obtain ⟨q, hq⟩ := answerOf_some hanswer
    exact ⟨q, d, hq, hno⟩
  | releasing lease k =>
    obtain ⟨rfl, rfl, howned⟩ := hrule
    refine h.called (.inl (foreign_release lease)) fun e he => ?_
    cases he
    exact ⟨(moves_called s _).known (h.owned hpast howned), _, getElem_length s _, nofun⟩
  | released lease =>
    obtain ⟨rfl, k, d, hreleasing, hanswer⟩ := hrule
    refine hsame _ fun e he => ?_
    cases he
    obtain ⟨hknown, reply, hcall, hfree⟩ := hfact _ hreleasing
    obtain ⟨q, hq⟩ := answerOf_some hanswer
    obtain ⟨-, rfl⟩ := Call.mk.inj (Option.some.inj (hq.symm.trans hcall))
    exact ⟨hknown, hfree d rfl⟩
  | gaveUp lease =>
    obtain rfl : s' = s := hrule
    exact hsame _ fun e he => by cases he; trivial
  | evaluated n lease =>
    obtain ⟨-, -, -, f, rfl, hputs⟩ := hrule
    exact h.shelled (believes_modify h.shells fun x _ => h.puts hpast hputs x.env)
      fun e he => by cases he; trivial
  | failed n =>
    obtain ⟨rfl, -⟩ := hrule
    exact hsame _ fun e he => by cases he; trivial
  | closed n =>
    obtain ⟨-, rfl⟩ := hrule
    exact h.shelled (believes_modify h.shells fun x hx => h.shells n x hx)
      fun e he => by cases he; trivial
  | served k q => exact hrule.elim
  | ended => exact hrule.elim

/-! ### The steps around the shells -/

theorem getElem_set {calls : List Call} {k : ℕ} {c c' : Call} (hk : calls[k]? = some c) (j : ℕ) :
    (calls.set k c')[j]? = if j = k then some c' else calls[j]? := by
  rw [List.getElem?_set]
  by_cases hj : k = j
  · subst hj
    rw [if_pos rfl, if_pos rfl, if_pos (List.getElem?_eq_some_iff.mp hk).1]
  · rw [if_neg hj, if_neg (Ne.symm hj)]

/-- A call that has been waiting becomes something. -/
theorem calls_set {k : ℕ} {c : Call} (hcall : s.calls[k]? = some c) (hwaiting : c.reply = .waiting)
    (reply : Reply) (j : ℕ) (c' : Call) (hc' : s.calls[j]? = some c') :
    ∃ c'', (s.calls.set k (c.become reply))[j]? = some c'' ∧ c''.request = c'.request ∧
      (c'.reply ≠ .waiting → c'' = c') := by
  rw [getElem_set hcall]
  by_cases hj : j = k
  · subst hj
    obtain rfl := Option.some.inj (hcall.symm.trans hc')
    exact ⟨_, if_pos rfl, rfl, fun hne => absurd hwaiting hne⟩
  · exact ⟨c', (if_neg hj).trans hc', rfl, fun _ => rfl⟩

/-- A call of somebody else, or one of a shell. -/
theorem Sound.fields (h : Sound ids py history s) {k : ℕ} {c : Call} (hcall : s.calls[k]? = some c)
    (hcommand : Python.Value.get c.request (lit "command") = .str (lit "acquire")) {r : Request}
    (hfields : acquireFields py host c.request = .ok r) {n : ℕ} (howner : r.ownerPid = ids.pid n) :
    (∃ spec, c.request = acquireDocument (ids.uuid4 k) (ids.pid n) spec) ∧ r.leaseId = ids.uuid4 k := by
  rcases h.calls k c hcall with hforeign | ⟨m, spec, -, hq, -⟩
  · exact absurd howner (hforeign hcommand host r hfields n)
  · obtain ⟨r', hr', hlease, hpid⟩ := @acquireFields_document py host (ids.uuid4 k) (ids.pid m) spec
    rw [hq] at hfields
    obtain rfl := Except.ok.inj (hr'.symm.trans hfields)
    obtain rfl := ids.pid_injective (hpid.symm.trans howner)
    exact ⟨⟨spec, hq⟩, hlease⟩

/-- What serving a request does to the server. -/
theorem serveRequest_cases {srv srv' : Server} {d document : Dict}
    (h : serveRequest py host srv d = (srv', .ok document)) :
    srv' = (response py host srv d).1 ∧
      ((response py host srv d).2 = .ok document ∨
        (∃ e, (response py host srv d).2 = .error e) ∧ accepted document = false) := by
  unfold serveRequest at h
  rcases hresponse : response py host srv d with ⟨s1, e | document'⟩
  · rw [hresponse] at h
    dsimp only at h
    split_ifs at h
    · obtain ⟨rfl, hd⟩ := Prod.mk.inj h
      refine ⟨rfl, .inr ⟨⟨e, rfl⟩, ?_⟩⟩
      rw [← Except.ok.inj hd]
      rfl
    · cases (Prod.mk.inj h).2
  · rw [hresponse] at h
    obtain ⟨rfl, hd⟩ := Prod.mk.inj h
    exact ⟨rfl, .inl hd⟩

/-- An `acquire` that is served, with the answer that it is. -/
theorem served_acquire {srv srv' : Server} {now : ℚ} {under : Str → Option TunnelSpec} {lease : Str}
    {pid : ℤ} {spec : TunnelSpec} {d : Dict} (hrun : Run py now srv under)
    (hserve : serveRequest py host srv (acquireDocument lease pid spec) = (srv', .ok d))
    (hok : accepted d = true) :
    pidAlive host pid = .ok true ∧ srv'.leases = setLease srv.leases lease ⟨pid, host.time⟩ ∧
      Python.Value.get d (lit "leaseId") = .str lease ∧
        ∃ relay, srv'.relay = some relay ∧
          Python.Value.get d (lit "publicPort") = .int relay.publicPort := by
  obtain ⟨rfl, hresult⟩ := serveRequest_cases hserve
  rcases hresult with hresult | ⟨-, hno⟩
  swap
  · rw [hno] at hok
    cases hok
  have hacquire : acquire py host srv (acquireDocument lease pid spec) =
      ((response py host srv (acquireDocument lease pid spec)).1, .ok d) := by
    rw [← response_acquire (get_acquire _ _ _).1, ← hresult]
  obtain ⟨r, relay, hfields, halive, hrelay, hleases, rfl⟩ := acquire_granted hrun.inv hacquire
  obtain ⟨r', hr', hlease, hpid⟩ := @acquireFields_document py host lease pid spec
  obtain rfl := Except.ok.inj (hr'.symm.trans hfields)
  rw [hpid] at halive hleases
  rw [hlease] at hleases
  exact ⟨halive, hleases, congrArg Json.str hlease, relay, hrelay, rfl⟩

section

variable {k : ℕ} {c : Call} {srv srv' : Server} {host : Host} {document : Dict} {now : ℚ}
  {under : Str → Option TunnelSpec}

/-- The port of the relay after a step of the broker. -/
theorem Sound.port_range (h : Sound ids py history s) (hserver : s.server = some srv)
    (hrun : Run py now srv under) (hrunning : srv.stopRequested = false) (hsees : Sees ids host s)
    (e : BrokerRuns.Event) {relay' : Relay} (hrelay' : (after py host srv e).relay = some relay') :
    20000 ≤ relay'.publicPort ∧ relay'.publicPort < 30000 := by
  rcases @after_port py _ _ _ hrun.inv hrunning e relay' hrelay' with ⟨relay, hrelay, hport⟩ | hport
  · rw [← hport]
    exact h.ports srv relay hserver hrelay
  · exact hsees.1 _ hport

/-- A lease of a shell that was not there is the one of the call that is served. -/
theorem Sound.new_lease (h : Sound ids py history s) (hrun : Run py now srv under)
    (hcall : s.calls[k]? = some c) (hserve : serveRequest py host srv c.request = (srv', .ok document))
    {id : Str} {l : Lease} {n : ℕ} (hmem : (id, l) ∈ srv'.leases) (howner : l.ownerPid = ids.pid n) :
    (id, l) ∈ srv.leases ∨ id = ids.uuid4 k ∧
      (∃ spec, c.request = acquireDocument (ids.uuid4 k) (ids.pid n) spec) ∧ accepted document = true := by
  obtain ⟨rfl, hresult⟩ := serveRequest_cases hserve
  refine (response_leases hrun.inv hmem).imp_right ?_
  rintro ⟨hcommand, r, document', hfields, hentry, hok⟩
  obtain ⟨rfl, rfl⟩ := Prod.mk.inj hentry
  obtain ⟨hspec, hid⟩ := h.fields hcall hcommand hfields howner
  refine ⟨hid, hspec, ?_⟩
  obtain rfl : document' = document := by
    rcases hresult with hresult | ⟨⟨e, hresult⟩, -⟩
    · exact Except.ok.inj (hok.symm.trans hresult)
    · cases hok.symm.trans hresult
  have hacquire : acquire py host srv c.request = ((response py host srv c.request).1, .ok document') := by
    rw [← response_acquire hcommand, ← hok]
  obtain ⟨r', relay, -, -, -, -, rfl⟩ := acquire_granted hrun.inv hacquire
  rfl

theorem Sound.moves_served (h : Sound ids py history s) (hserver : s.server = some srv)
    (hrun : Run py now srv under) (hcall : s.calls[k]? = some c) (hwaiting : c.reply = .waiting)
    (hserve : serveRequest py host srv c.request = (srv', .ok document)) (reply : Reply) :
    Moves ids s { s with server := some srv', calls := s.calls.set k (c.become reply) } where
  calls := calls_set hcall hwaiting reply
  free lease hknown hfree srv1 l n hsrv1 hmem howner := by
    obtain rfl := Option.some.inj hsrv1
    rcases h.new_lease hrun hcall hserve hmem howner with hold | ⟨rfl, -⟩
    · exact hfree srv l n hserver hold howner
    · rcases hknown with hnil | ⟨k', c', hk', hc', hne⟩
      · exact (ids.uuid4_plain k).2 hnil
      · obtain rfl := ids.uuid4_injective hk'
        obtain rfl := Option.some.inj (hcall.symm.trans hc')
        exact hne hwaiting
  releases j lease d hj hj' srv1 l n hsrv1 hmem howner := by
    obtain rfl := Option.some.inj hsrv1
    obtain ⟨rfl, -⟩ := serveRequest_cases hserve
    rw [getElem_set hcall] at hj'
    by_cases hjk : j = k
    · subst hjk
      obtain rfl := Option.some.inj (hcall.symm.trans hj)
      have hgone := @response_release py host srv _ (get_release lease).1 _ hmem
      rw [(get_release lease).2, textOf_str] at hgone
      exact hgone rfl
    · rw [if_neg hjk] at hj'
      cases hj.symm.trans hj'

/-- **The broker serves a call.** -/
theorem Sound.served (h : Sound ids py history s) {reply : Reply} (hserver : s.server = some srv)
    (hrunning : srv.stopRequested = false) (hcall : s.calls[k]? = some c) (hwaiting : c.reply = .waiting)
    (hsees : Sees ids host s) (hserve : serveRequest py host srv c.request = (srv', .ok document))
    (hreply : reply = .lost ∨ reply = .answered document) :
    Sound ids py (history ++ report none (some (.served k c.request)))
      { s with server := some srv', calls := s.calls.set k (c.become reply) } := by
  obtain ⟨now, under, hrun⟩ := h.run srv hserver
  have hafter : srv' = after py host srv (.request c.request) := (serveRequest_cases hserve).1
  have hset := @getElem_set s.calls k c (c.become reply) hcall
  have hdone : reply ≠ .waiting := by rcases hreply with rfl | rfl <;> simp
  have hmoves := h.moves_served hserver hrun hcall hwaiting hserve reply
  have hports : ∀ relay', srv'.relay = some relay' → 20000 ≤ relay'.publicPort ∧ relay'.publicPort < 30000 :=
    fun relay' hrelay' => h.port_range hserver hrun hrunning hsees _ (hafter ▸ hrelay')
  refine ⟨?_, ?_, ?_, ?_, ?_, ?_, h.later hmoves fun e he => by cases he; trivial⟩
  · intro srv1 hsrv1
    obtain rfl := Option.some.inj hsrv1
    exact ⟨now, _, hafter ▸ hrun.step host (.request c.request) hrunning⟩
  · intro srv1 relay' hsrv1 hrelay'
    obtain rfl := Option.some.inj hsrv1
    exact hports relay' hrelay'
  · intro j c' hc'
    rw [hset] at hc'
    split_ifs at hc' with hj
    · subst hj
      obtain rfl := Option.some.inj hc'
      exact h.request hcall _
    · exact h.request hc' _
  · rintro n j d ⟨spec, hj⟩ hok
    rw [hset] at hj
    split_ifs at hj with hjk
    · subst hjk
      obtain ⟨hq, rfl⟩ := Call.mk.inj (Option.some.inj hj)
      obtain rfl : document = d := by
        rcases hreply with hlost | hanswered
        · cases hlost
        · exact (Reply.answered.inj hanswered).symm
      rw [hq] at hserve
      obtain ⟨-, -, hlease, relay, hrelay, hport⟩ := served_acquire hrun hserve hok
      exact ⟨relay.publicPort, hlease, hport, hports relay hrelay⟩
    · exact h.answers n j d ⟨spec, hj⟩ hok
  · rintro srv1 id l n hsrv1 hmem howner
    obtain rfl := Option.some.inj hsrv1
    rcases h.new_lease hrun hcall hserve hmem howner with hold | ⟨rfl, ⟨spec, hq⟩, hok⟩
    · obtain ⟨j, reply', hid, hasked, hne, hok⟩ := h.leases srv id l n hserver hold howner
      exact ⟨j, reply', hid, hmoves.asked hasked hne, hne, hok⟩
    · refine ⟨k, reply, rfl, ⟨spec, ?_⟩, hdone, fun d hd => ?_⟩
      · rw [hset, if_pos rfl, ← hq]
        rfl
      · rcases hreply with rfl | rfl
        · cases hd
        · rw [← Reply.answered.inj hd]
          exact hok
  · intro n x hx
    exact hmoves.believes (h.shells n x hx)

end

/-- A connection is lost. -/
theorem Sound.lost (h : Sound ids py history s) {k : ℕ} {c : Call} (hcall : s.calls[k]? = some c)
    (hwaiting : c.reply = .waiting) :
    Sound ids py (history ++ report none none) { s with calls := s.calls.set k (c.become .lost) } := by
  have hset := @getElem_set s.calls k c (c.become .lost) hcall
  have hmoves : Moves ids s { s with calls := s.calls.set k (c.become .lost) } :=
    { calls := calls_set hcall hwaiting .lost
      free := fun _ _ hfree => hfree
      releases := fun j lease d hj hj' => by
        rw [hset] at hj'
        split_ifs at hj'
        · cases congrArg (Option.map Call.reply) hj'
        · cases hj.symm.trans hj' }
  refine ⟨h.run, h.ports, ?_, ?_, ?_, fun n x hx => hmoves.believes (h.shells n x hx),
    h.later hmoves nofun⟩
  · intro j c' hc'
    rw [hset] at hc'
    split_ifs at hc' with hj
    · subst hj
      obtain rfl := Option.some.inj hc'
      exact h.request hcall _
    · exact h.request hc' _
  · rintro n j d ⟨spec, hj⟩ hok
    rw [hset] at hj
    split_ifs at hj
    · cases congrArg (Option.map Call.reply) hj
    · exact h.answers n j d ⟨spec, hj⟩ hok
  · intro srv id l n hserver hmem howner
    obtain ⟨j, reply, hid, hasked, hne, hok⟩ := h.leases srv id l n hserver hmem howner
    exact ⟨j, reply, hid, hmoves.asked hasked hne, hne, hok⟩

/-- A step that changes at most the server, and adds no leases. -/
theorem Sound.worked (h : Sound ids py history s) {srv' : Server}
    (hrun : ∃ now under, Run py now srv' under)
    (hports : ∀ relay, srv'.relay = some relay → 20000 ≤ relay.publicPort ∧ relay.publicPort < 30000)
    (hleases : ∀ entry ∈ srv'.leases, ∃ srv, s.server = some srv ∧ entry ∈ srv.leases) :
    Sound ids py (history ++ report none none) { s with server := some srv' } := by
  have hmoves : Moves ids s { s with server := some srv' } :=
    { calls := fun _ c hc => ⟨c, hc, rfl, fun _ => rfl⟩
      free := fun lease _ hfree srv1 l n hsrv1 hmem => by
        obtain rfl := Option.some.inj hsrv1
        obtain ⟨srv, hserver, hold⟩ := hleases _ hmem
        exact hfree srv l n hserver hold
      releases := fun j lease d hj hj' => by cases hj.symm.trans hj' }
  refine ⟨?_, ?_, ?_, h.answers, ?_, h.shells, h.later hmoves nofun⟩
  · intro srv1 hsrv1
    obtain rfl := Option.some.inj hsrv1
    exact hrun
  · intro srv1 relay hsrv1 hrelay
    obtain rfl := Option.some.inj hsrv1
    exact hports relay hrelay
  · exact fun _ _ hc => h.request hc _
  · intro srv1 id l n hsrv1 hmem howner
    obtain rfl := Option.some.inj hsrv1
    obtain ⟨srv, hserver, hold⟩ := hleases _ hmem
    exact h.leases srv id l n hserver hold howner

theorem abort_reply {c : Call} (h : c.reply ≠ .waiting) : c.abort = c := if_neg h

theorem abort_request (c : Call) : c.abort.request = c.request := by
  unfold Call.abort
  split_ifs
  · rfl
  · rfl

theorem abort_answered {c : Call} {q d : Dict} (h : c.abort = ⟨q, .answered d⟩) : c = ⟨q, .answered d⟩ := by
  unfold Call.abort at h
  split_ifs at h
  · cases congrArg Call.reply h
  · exact h

/-- The broker ends, and its connections with it. -/
theorem Sound.ended (h : Sound ids py history s) : Sound ids py (history ++ report none (some .ended))
    { s with server := none, calls := s.calls.map Call.abort } := by
  have hmap : ∀ (k : ℕ) (c' : Call), (s.calls.map Call.abort)[k]? = some c' →
      ∃ c, s.calls[k]? = some c ∧ c.abort = c' := by
    intro k c' hc'
    rw [List.getElem?_map] at hc'
    exact Option.map_eq_some_iff.mp hc'
  have hmoves : Moves ids s { s with server := none, calls := s.calls.map Call.abort } :=
    { calls := fun k c hc => by
        refine ⟨c.abort, ?_, abort_request c, abort_reply⟩
        rw [List.getElem?_map, hc]
        rfl
      free := fun _ _ _ _ _ _ hserver => by cases hserver
      releases := fun _ _ _ _ _ _ _ _ hserver => by cases hserver }
  refine ⟨fun _ hnone => (by cases hnone), fun _ _ hnone => (by cases hnone), ?_, ?_,
    fun _ _ _ _ hnone => (by cases hnone), fun n x hx => hmoves.believes (h.shells n x hx),
    h.later hmoves fun e he => by cases he; trivial⟩
  · intro k c' hc'
    obtain ⟨c, hc, rfl⟩ := hmap k c' hc'
    rw [abort_request]
    exact h.request hc _
  · rintro n k d ⟨spec, hk⟩ hok
    obtain ⟨c, hc, habort⟩ := hmap k _ hk
    exact h.answers n k d ⟨spec, hc.trans (congrArg some (abort_answered habort))⟩ hok

/-- **What happens around the shells keeps the invariant.** -/
theorem Sound.outside (h : Sound ids py history s) {event : Option Event}
    (hout : Outside ids py s s' event) : Sound ids py (history ++ report none event) s' := by
  cases hout with
  | called hforeign => exact h.called (.inl hforeign) nofun
  | lost hcall hwaiting => exact h.lost hcall hwaiting
  | served reply hserver hrunning hcall hwaiting hsees hserve hreply =>
    exact h.served hserver hrunning hcall hwaiting hsees hserve hreply
  | @worked srv host e hserver hrunning hsees he =>
    obtain ⟨now, under, hrun⟩ := h.run srv hserver
    exact h.worked ⟨now, _, hrun.step host e hrunning⟩
      (fun relay => h.port_range hserver hrun hrunning hsees e)
      fun entry hmem => ⟨srv, hserver, after_leases hrun.inv he hmem⟩
  | ended => exact h.ended
  | started now hserver =>
    exact h.worked ⟨now, _, .start⟩ (fun _ hrelay => by cases hrelay) fun _ hmem => by cases hmem

theorem sound_first : Sound ids py [] ⟨none, [], []⟩ where
  run _ hnone := by cases hnone
  ports _ _ hnone := by cases hnone
  calls k c hc := by cases hc
  answers n k d := by rintro ⟨spec, hk⟩; cases hk
  leases _ _ _ _ hnone := by cases hnone
  shells n x hx := by cases hx
  facts e he := by cases he

theorem Sound.trace (h : Trace (Outside ids py) (SessionRule ids py host) ⟨none, [], []⟩ history s) :
    Sound ids py history s := by
  induction h with
  | start => exact sound_first
  | outside _ hout ih => exact ih.outside hout
  | access i _ hrule ih => exact ih.access hrule

end Cloudx.Local.LeaseRuns
