import Resolved.Proof.Exchange.StrictTls
import Resolved.Proof.Links.Identity

namespace Resolved.Proof.Exchange
open Lib Resolved.Routing Resolved.Links Resolved.Exchange Spec Proof.Links

variable {state : PoolState} {channel : Channel} {connection : Connection}

theorem new_identity {connected : Except IoError Unit} (made : state.new channel connected = .ok connection) :
    identity state.resolver state.names channel = .ok connection := by
  cases channel <;>
    simp only [PoolState.new, newUdpSocket, newTcpStream, newTlsStream] at made <;>
    simp only [identity] <;>
    cases looked : state.resolver.serverTransportIfindex state.names _ <;>
    cases connected <;>
    simp_all [ioResult, bind, Except.bind, pure, Except.pure]

theorem take_cases (state : PoolState) (channel : Channel) (connected configured : Except IoError Unit) :
    (∃ error, state.take channel connected configured = (.error error, (state.pools.pop channel).2) ∨
      state.take channel connected configured = (.error error, state.pools)) ∨
    (∃ connection, (state.pools.pop channel).1 = some connection ∧
      state.take channel connected configured =
        (.ok (connection, true), (state.pools.pop channel).2)) ∨
    ∃ connection, state.new channel connected = .ok connection ∧
      state.take channel connected configured = (.ok (connection, false), state.pools) := by
  have common : ∀ configured,
      let taken := takeOr state.pools channel (state.new channel connected) configured
      (∃ error, taken = (.error error, (state.pools.pop channel).2) ∨
        taken = (.error error, state.pools)) ∨
      (∃ connection, (state.pools.pop channel).1 = some connection ∧
        taken = (.ok (connection, true), (state.pools.pop channel).2)) ∨
      ∃ connection, state.new channel connected = .ok connection ∧
        taken = (.ok (connection, false), state.pools) := by
    intro configured
    unfold takeOr
    cases popped : state.pools.pop channel with
    | mk out rest =>
    cases out with
    | some connection =>
      cases configured with
      | ok _ => exact .inr (.inl ⟨connection, rfl, rfl⟩)
      | error error => exact .inl ⟨.io error, .inl rfl⟩
    | none =>
      cases made : state.new channel connected with
      | error error => exact .inl ⟨error, .inr rfl⟩
      | ok connection =>
        cases configured with
        | ok _ => exact .inr (.inr ⟨connection, rfl, rfl⟩)
        | error error => exact .inl ⟨.io error, .inr rfl⟩
  cases channel with
  | udp server => exact common (.ok ())
  | tcp server | tls server strict => exact common configured

structure Current (state : PoolState) : Prop where
  pooled : state.pools.Holds fun channel connection =>
    identity state.resolver state.names channel = .ok connection
  leased : ∀ channel connection, (channel, connection) ∈ state.leased →
    identity state.resolver state.names channel = .ok connection

theorem Current.reuses (current : Current state) : state.ReusesCurrent := by
  intro channel connected configured connection pools taken
  rcases take_cases state channel connected configured with ⟨error, run | run⟩ |
    ⟨popped, out, run⟩ | ⟨made, -, run⟩
  · rw [run] at taken
    cases taken
  · rw [run] at taken
    cases taken
  · rw [run] at taken
    cases taken
    exact current.pooled.popped out
  · rw [run] at taken
    cases taken

theorem Current.reconfigured (current : Current state) {resolver : Resolver}
    {names : InterfaceNames}
    (same : ∀ channel, state.InUse channel →
      identity resolver names channel = identity state.resolver state.names channel) :
    Current { state with resolver := resolver, names := names } where
  pooled := current.pooled.imp fun channel _ member now =>
    (same channel (.inl (List.ne_nil_of_mem member))).trans now
  leased channel connection member :=
    (same channel (.inr ⟨connection, member⟩)).trans (current.leased channel connection member)

theorem Current.lease (current : Current state) {pools : Pools}
    (pooled : pools.Holds fun channel connection =>
      identity state.resolver state.names channel = .ok connection)
    (new : identity state.resolver state.names channel = .ok connection) :
    Current { state with pools := pools, leased := state.leased ++ [(channel, connection)] } where
  pooled := pooled
  leased other held member := by
    rcases List.mem_append.1 member with old | last
    · exact current.leased other held old
    · cases List.mem_singleton.1 last
      exact new

theorem Current.step {state state' : PoolState} {action : PoolAction} (current : Current state)
    (keeps : KeepsIdentities state action) (stepped : state.step action = some state') : Current state' := by
  cases action with
  | take channel connected configured =>
    simp only [PoolState.step] at stepped
    rcases take_cases state channel connected configured with ⟨error, run | run⟩ |
      ⟨popped, out, run⟩ | ⟨made, opened, run⟩
    · rw [run] at stepped
      cases stepped
      exact ⟨current.pooled.pop, current.leased⟩
    · rw [run] at stepped
      cases stepped
      exact current
    · rw [run] at stepped
      cases stepped
      exact current.lease current.pooled.pop (current.pooled.popped out)
    · rw [run] at stepped
      cases stepped
      exact current.lease current.pooled (new_identity opened)
  | reopen channel connected =>
    simp only [PoolState.step] at stepped
    cases made : state.new channel connected with
    | error error =>
      rw [made] at stepped
      cases stepped
      exact current
    | ok connection =>
      rw [made] at stepped
      cases stepped
      exact current.lease current.pooled (new_identity made)
  | recycle lease =>
    simp only [PoolState.step, Option.bind_eq_bind, Option.bind_eq_some_iff] at stepped
    obtain ⟨⟨channel, connection⟩, held, stepped⟩ := stepped
    cases stepped
    have now := current.leased channel connection (List.mem_of_getElem? held)
    exact ⟨current.pooled.push _ now, fun other held member =>
      current.leased other held (List.mem_of_mem_eraseIdx member)⟩
  | discard lease =>
    cases stepped
    exact ⟨current.pooled, fun other held member =>
      current.leased other held (List.mem_of_mem_eraseIdx member)⟩
  | recordTlsFailure server strict =>
    cases stepped
    exact ⟨current.pooled.forget, current.leased⟩
  | reconfigure op =>
    cases stepped
    refine current.reconfigured fun channel inUse => ?_
    by_cases rewrites : Rewrites state.resolver channel.server.scope op
    · exact keeps channel inUse rewrites
    · exact (linkOp_sameServers state.resolver op rewrites).identity state.names
  | rename names =>
    cases stepped
    exact current.reconfigured keeps

theorem reuses_current_connections (resolver : Resolver) (names : InterfaceNames) (state : PoolState)
    (run : Reaches PoolState.step KeepsIdentities (.start resolver names) state) : state.ReusesCurrent := by
  have current : Current state := by
    apply run.invariant Current
    · exact ⟨Pool.holds_empty, fun channel connection member => by cases member⟩
    · intro state action state' current keeps stepped
      exact current.step keeps stepped
  exact current.reuses

def serverOn7 : SocketAddr := .v4 ⟨192, 0, 2, 53⟩ 853

def channelOn7 : Channel := .tls (.withSlot (.link 7) serverOn7 0) true

def named (name : String) : PoolAction :=
  .reconfigure (.setLinkDnsSpecs 7 [⟨serverOn7, none, some name.toList⟩])

def noInterfaces : InterfaceNames := fun _ => .error (.os 19)

def exchanged7 : List PoolAction := [.take channelOn7 (.ok ()) (.ok ()), .recycle 0]

def poolsAfter (actions : List PoolAction) : Option PoolState :=
  actions.foldlM PoolState.step (.start (resolverIn .yes .no) noInterfaces)

theorem reuses_current_connections_defaultRoute :
    ∃ state, poolsAfter (exchanged7 ++ [.reconfigure (.setLinkDefaultRoute 7 (some true))]) = some state ∧
      (state.take channelOn7 (.ok ()) (.ok ())).1 = .ok (⟨serverOn7, some 7, some ⟨none, true⟩⟩, true) ∧
      state.ReusesCurrent := by
  have ran : (poolsAfter (exchanged7 ++
      [.reconfigure (.setLinkDefaultRoute 7 (some true))])).map (fun state =>
        (state.take channelOn7 (.ok ()) (.ok ())).1) =
      some (.ok (⟨serverOn7, some 7, some ⟨none, true⟩⟩, true)) := by decide +kernel
  obtain ⟨state, run, taken⟩ := Option.map_eq_some_iff.1 ran
  refine ⟨state, run, taken, ?_⟩
  refine reuses_current_connections (resolverIn .yes .no) noInterfaces state
    (.of_actions _ ?_ run)
  intro state action member
  rcases List.mem_append.1 member with exchange | last
  · rcases List.mem_pair.1 exchange with rfl | rfl <;> trivial
  · cases List.mem_singleton.1 last
    intro channel inUse rewrites
    cases rewrites

theorem tls_stream_outlives_server_name :
    ∃ state, Reaches PoolState.step (fun _ _ => True) (.start (resolverIn .yes .no) noInterfaces) state ∧
      (state.take channelOn7 (.ok ()) (.ok ())).1 =
        .ok (⟨serverOn7, some 7, some ⟨some "a.example".toList, true⟩⟩, true) ∧
      identity state.resolver state.names channelOn7 =
        .ok ⟨serverOn7, some 7, some ⟨some "b.example".toList, true⟩⟩ ∧ ¬ state.ReusesCurrent := by
  have ran : (poolsAfter ([named "a.example"] ++ exchanged7 ++ [named "b.example"])).map
      (fun state => ((state.take channelOn7 (.ok ()) (.ok ())).1,
        identity state.resolver state.names channelOn7)) =
      some (.ok (⟨serverOn7, some 7, some ⟨some "a.example".toList, true⟩⟩, true),
        .ok ⟨serverOn7, some 7, some ⟨some "b.example".toList, true⟩⟩) := by decide +kernel
  obtain ⟨state, run, both⟩ := Option.map_eq_some_iff.1 ran
  obtain ⟨taken, now⟩ := Prod.mk.inj both
  refine ⟨state, .of_actions _ (fun _ _ _ => trivial) run, taken, now, ?_⟩
  intro reuses
  have same := reuses channelOn7 (.ok ()) (.ok ()) _ _ (Prod.ext taken rfl)
  rw [now] at same
  simp at same

end Resolved.Proof.Exchange
