/-
  File:      BoostAsioWebServer/ServerEndpoint.lean
  Subject:   WHERE A SERVER LISTENS, against where its configuration asks it to.

  `openAcceptor` builds the endpoint in two ways. Each is described exactly, over every answer of
  a resolver that keeps its word (`ResolveSpec`):

  * `builds_single_iff`: with a single host address it is 0.0.0.0, and the port cut to 16 bits;
  * `builds_resolved_iff`: without one it is an address of the host, and the port whole;
  * `endpoint_of_run`: over every sequence of calls and completions the acceptor is at such an
    endpoint;
  * `listensAsConfigured_iff`: so the two ways stand in each other's place, and a server listens as
    configured only where that makes no difference.
-/
import BoostAsioWebServer.ServerLifecycle

namespace BoostAsioWebServer

open ByteText Runs

/-! ## 1. The resolver -/

/-- The any-address of either protocol. -/
def Address.isUnspecified : Address → Bool
  | .v4 value => value = 0
  | .v6 value => value = 0

section Listening

variable (addresses : Bytes → Address → Prop)

/-- The resolver answers with an address of the host and with the port of the text, or throws. -/
def ResolveSpec (resolve : Bytes → Bytes → Option Endpoint) : Prop :=
  ∀ (host : Bytes) (n : Nat) (endpoint : Endpoint),
    resolve host (intText n) = some endpoint →
      addresses host endpoint.address ∧ endpoint.port.toNat = n

/-- A resolver that throws for everything but one host and one port. -/
def resolveOnly (host : Bytes) (n : Nat) (endpoint : Endpoint) : Bytes → Bytes → Option Endpoint :=
  fun name service => if name = host ∧ service = intText n then some endpoint else none

variable {addresses}

theorem resolveOnly_self (host : Bytes) (n : Nat) (endpoint : Endpoint) :
    resolveOnly host n endpoint host (intText n) = some endpoint :=
  if_pos ⟨rfl, rfl⟩

/-- It keeps its word. -/
theorem resolveSpec_only {host : Bytes} {n : Nat} {endpoint : Endpoint}
    (haddress : addresses host endpoint.address) (hport : endpoint.port.toNat = n) :
    ResolveSpec addresses (resolveOnly host n endpoint) := by
  intro name m answer h
  unfold resolveOnly at h
  split at h
  · rename_i hmatch
    obtain ⟨rfl, htext⟩ := hmatch
    cases h
    rw [intText_inj htext]
    exact ⟨haddress, hport⟩
  · cases h

/-- So does one that always throws. -/
theorem resolveSpec_none : ResolveSpec addresses fun _ _ => none := by
  intro host n endpoint h
  cases h

/-- Every call but the resolution succeeds. -/
def StartOutcomes.resolving (resolve : Bytes → Bytes → Option Endpoint) : StartOutcomes :=
  { StartOutcomes.good with resolve := resolve }

/-! ## 2. The endpoints -/

variable (addresses) (configuration : Configuration)

/-- `openAcceptor` can build the endpoint. -/
def Builds (endpoint : Endpoint) : Prop :=
  ∃ os, ResolveSpec addresses os.resolve ∧ configuration.endpoint os = some endpoint

variable {addresses configuration}

/-- **With a single host address** the endpoint is the any-address, and the port is cut. -/
theorem builds_single_iff (hsingle : configuration.singleHostAddress = true) (endpoint : Endpoint) :
    Builds addresses configuration endpoint ↔
      endpoint = ⟨.v4 0, configuration.port.toUInt16⟩ := by
  have hany (os : StartOutcomes) :
      configuration.endpoint os = some ⟨.v4 0, configuration.port.toUInt16⟩ := by
    rw [Configuration.endpoint, if_pos hsingle]
  refine ⟨fun h => ?_, fun h => ?_⟩
  · obtain ⟨os, -, hbuilt⟩ := h
    rw [hany] at hbuilt
    exact (Option.some.inj hbuilt).symm
  · rw [h]
    exact ⟨.resolving fun _ _ => none, resolveSpec_none, hany _⟩

/-- **Without one** it is any address of the host, and the port is whole. -/
theorem builds_resolved_iff (hsingle : configuration.singleHostAddress = false)
    (endpoint : Endpoint) :
    Builds addresses configuration endpoint ↔
      addresses configuration.hostAddress endpoint.address ∧
        endpoint.port.toNat = configuration.port.toNat := by
  have hresolved (os : StartOutcomes) : configuration.endpoint os =
      os.resolve configuration.hostAddress (intText configuration.port.toNat) := by
    rw [Configuration.endpoint, hsingle]
    rfl
  refine ⟨fun h => ?_, fun h => ?_⟩
  · obtain ⟨os, hspec, hbuilt⟩ := h
    rw [hresolved] at hbuilt
    exact hspec _ _ _ hbuilt
  · obtain ⟨haddress, hport⟩ := h
    refine ⟨.resolving (resolveOnly configuration.hostAddress configuration.port.toNat endpoint),
      resolveSpec_only haddress hport, ?_⟩
    rw [hresolved]
    exact resolveOnly_self _ _ _

/-- The cut keeps a port of 16 bits, and no other. -/
theorem toUInt16_toNat_iff (port : UInt32) :
    port.toUInt16.toNat = port.toNat ↔ port.toNat < 2 ^ 16 := by
  rw [UInt32.toNat_toUInt16]
  omega

/-! ## 3. The acceptor -/

/-- Where every thread can be created the loop of `start` comes to its end. -/
theorem startThreads_returns {os : StartOutcomes} (h : ∀ i, os.createsThread i = true) (n i : Nat)
    (s : BaseServer) : (s.startThreads os n i).2 = .returned := by
  induction n generalizing i s with
  | zero => rfl
  | succ n ih =>
    rw [BaseServer.startThreads, if_pos (h i)]
    exact ih _ _

/-- A `start` that returns leaves the acceptor listening at the endpoint that was built. -/
theorem start_returned {os : StartOutcomes} {s : BaseServer}
    (h : (s.start configuration os).2 = .returned) :
    ∃ endpoint, configuration.endpoint os = some endpoint ∧
      (s.start configuration os).1.acceptor = .listening endpoint := by
  rcases start_cases configuration os s with ⟨endpoint, added, hopens, heq, -⟩ | ⟨acceptor, -, heq⟩
  · exact ⟨endpoint, hopens.endpoint_eq, by rw [heq]; rfl⟩
  · rw [heq] at h
    cases h

/-- Every endpoint that can be built is one a new server can be made to listen at. -/
theorem Builds.start {endpoint : Endpoint} (h : Builds addresses configuration endpoint) :
    ∃ os, ResolveSpec addresses os.resolve ∧
      (BaseServer.new.start configuration os).2 = .returned ∧
      (BaseServer.new.start configuration os).1.acceptor = .listening endpoint := by
  obtain ⟨os, hspec, hbuilt⟩ := h
  have hopens : Opens configuration (.resolving os.resolve) .new endpoint :=
    ⟨hbuilt, rfl, rfl, rfl, rfl, rfl⟩
  have hreturned : (BaseServer.new.start configuration (.resolving os.resolve)).2 = .returned := by
    rw [hopens.start_eq]
    exact startThreads_returns (fun _ => rfl) _ _ _
  obtain ⟨built, hbuilt', hlistens⟩ := start_returned hreturned
  obtain rfl : built = endpoint := Option.some.inj (hbuilt'.symm.trans hbuilt)
  exact ⟨.resolving os.resolve, hspec, hreturned, hlistens⟩

/-- The endpoint the acceptor is bound to. -/
def Acceptor.endpoint : Acceptor → Option Endpoint
  | .bound endpoint => some endpoint
  | .listening endpoint => some endpoint
  | _ => none

/-- `openAcceptor` binds to the endpoint it builds, or leaves the acceptor where it was. -/
theorem openAcceptor_endpoint (os : StartOutcomes) (s : BaseServer) {endpoint : Endpoint}
    (h : (s.openAcceptor configuration os).1.acceptor.endpoint = some endpoint) :
    s.acceptor.endpoint = some endpoint ∨ configuration.endpoint os = some endpoint := by
  unfold BaseServer.openAcceptor at h
  cases hbuilt : configuration.endpoint os with
  | none =>
    rw [hbuilt] at h
    exact Or.inl h
  | some built =>
    simp only [hbuilt] at h
    split_ifs at h
    · exact Or.inl h
    · cases h
    · cases h
    · exact Or.inr h
    · exact Or.inr h

/-- So does `start`. -/
theorem start_endpoint (os : StartOutcomes) (s : BaseServer) {endpoint : Endpoint}
    (h : (s.start configuration os).1.acceptor.endpoint = some endpoint) :
    s.acceptor.endpoint = some endpoint ∨ configuration.endpoint os = some endpoint := by
  refine openAcceptor_endpoint os s ?_
  unfold BaseServer.start at h
  rcases hopen : s.openAcceptor configuration os with ⟨s', outcome⟩
  rw [hopen] at h
  cases outcome with
  | threw => exact h
  | returned =>
    obtain ⟨added, hadd, -⟩ := startThreads_adds os configuration.threadPoolSize 0 s'
    simp only [hadd] at h
    exact h

/-- The resolver of a `start` keeps its word. -/
def Resolves (addresses : Bytes → Address → Prop) (_ : BaseServer) (e : Event) : Prop :=
  ∀ os, e = .start os → ResolveSpec addresses os.resolve

/-- The acceptor is at an endpoint that was built, if at any. -/
def BoundAsBuilt (addresses : Bytes → Address → Prop) (configuration : Configuration)
    (s : BaseServer) : Prop :=
  ∀ endpoint, s.acceptor.endpoint = some endpoint → Builds addresses configuration endpoint

variable (services : Services) (transport : Transport)

/-- Every step keeps it there. -/
theorem boundAsBuilt_step {s s' : BaseServer} {e : Event}
    (hs : BoundAsBuilt addresses configuration s) (he : Resolves addresses s e)
    (h : s.step configuration services transport e = some s') :
    BoundAsBuilt addresses configuration s' := by
  intro endpoint hendpoint
  rcases step_cases configuration services transport h with
    ⟨os, rfl, rfl⟩ | ⟨-, rfl⟩ | ⟨index, failed, -, -, rfl⟩ | ⟨index, completion, c, c', -, -, -, rfl⟩
  · rcases start_endpoint os s hendpoint with hbefore | hbuilt
    · exact hs endpoint hbefore
    · exact ⟨os, he os rfl, hbuilt⟩
  · rw [stop_acceptor] at hendpoint
    exact hs endpoint hendpoint
  · rw [(sameLifecycle_handleAccept transport _ failed).acceptor] at hendpoint
    exact hs endpoint hendpoint
  · exact hs endpoint hendpoint

/-- **Over every sequence of calls and completions** the acceptor is at an endpoint the
    configuration builds. -/
theorem endpoint_of_run {es : List Event} {s : BaseServer}
    (hrun : Run (BaseServer.step configuration services transport) .new es s)
    (hresolves : StepsMeet (BaseServer.step configuration services transport) (Resolves addresses)
      .new es) : BoundAsBuilt addresses configuration s := by
  have hnew : BoundAsBuilt addresses configuration .new := by
    intro endpoint h
    cases h
  exact Run.invariant_of_steps
    (fun _ _ _ hs he h => boundAsBuilt_step services transport hs he h) hnew hrun hresolves

/-! ## 4. As configured -/

variable (addresses configuration)

/-- An endpoint as it is configured: the port itself; with a single host address an address of the
    host, which is the any-address only where the host names it; without one the any-address. The
    endpoint is the one handed to `bind`, so port 0 stands for itself. -/
structure AsConfigured (endpoint : Endpoint) : Prop where
  port : endpoint.port.toNat = configuration.port.toNat
  single : configuration.singleHostAddress = true →
    addresses configuration.hostAddress endpoint.address
  all : configuration.singleHostAddress = false → endpoint.address.isUnspecified = true

/-- A server listens where it was configured to: a `start` that returns leaves its acceptor at an
    endpoint as configured, and the two ways to build one agree on the port. -/
structure ListensAsConfigured : Prop where
  bound : ∀ (os : StartOutcomes) (s : BaseServer), ResolveSpec addresses os.resolve →
    (s.start configuration os).2 = .returned → ∃ endpoint,
      (s.start configuration os).1.acceptor = .listening endpoint ∧
      AsConfigured addresses configuration endpoint
  agree : ∀ (single : Bool) (endpoint : Endpoint),
    Builds addresses { configuration with singleHostAddress := single } endpoint →
      endpoint.port.toNat = configuration.port.toNat

variable {addresses configuration}

/-- Then every endpoint that can be built is as configured. -/
theorem ListensAsConfigured.builds (h : ListensAsConfigured addresses configuration)
    {endpoint : Endpoint} (hbuilds : Builds addresses configuration endpoint) :
    AsConfigured addresses configuration endpoint := by
  obtain ⟨os, hspec, hreturned, hlistens⟩ := hbuilds.start
  obtain ⟨endpoint', hlistens', hconfigured⟩ := h.bound os .new hspec hreturned
  obtain rfl : endpoint = endpoint' := Acceptor.listening.inj (hlistens.symm.trans hlistens')
  exact hconfigured

/-- Then the acceptor is at an endpoint as configured in every state the server reaches. -/
theorem ListensAsConfigured.of_run (h : ListensAsConfigured addresses configuration)
    {es : List Event} {s : BaseServer}
    (hrun : Run (BaseServer.step configuration services transport) .new es s)
    (hresolves : StepsMeet (BaseServer.step configuration services transport) (Resolves addresses)
      .new es) {endpoint : Endpoint} (hendpoint : s.acceptor.endpoint = some endpoint) :
    AsConfigured addresses configuration endpoint :=
  h.builds (endpoint_of_run services transport hrun hresolves endpoint hendpoint)

/-- Then the port has 16 bits. -/
theorem ListensAsConfigured.port_lt (h : ListensAsConfigured addresses configuration) :
    configuration.port.toNat < 2 ^ 16 := by
  have hcut := h.agree true ⟨.v4 0, configuration.port.toUInt16⟩
    ((builds_single_iff rfl _).mpr rfl)
  exact (toUInt16_toNat_iff _).mp hcut

/-- Conversely, where every endpoint is as configured and the port has 16 bits, the server listens
    as configured. -/
theorem ListensAsConfigured.of_builds (hport : configuration.port.toNat < 2 ^ 16)
    (h : ∀ endpoint, Builds addresses configuration endpoint →
      AsConfigured addresses configuration endpoint) :
    ListensAsConfigured addresses configuration where
  bound os s hspec hreturned := by
    obtain ⟨endpoint, hbuilt, hlistens⟩ := start_returned hreturned
    exact ⟨endpoint, hlistens, h endpoint ⟨os, hspec, hbuilt⟩⟩
  agree single endpoint hbuilds := by
    cases single with
    | true =>
      rw [(builds_single_iff rfl _).mp hbuilds]
      exact (toUInt16_toNat_iff _).mpr hport
    | false => exact ((builds_resolved_iff rfl _).mp hbuilds).2

variable (addresses configuration)

/-- **A server listens as configured if and only if** the port has 16 bits and what the two ways
    build is the same: 0.0.0.0 is an address of the host that is to be the only one, and the host
    of a server for all addresses has no address but the any-address. -/
theorem listensAsConfigured_iff :
    ListensAsConfigured addresses configuration ↔
      configuration.port.toNat < 2 ^ 16 ∧
      (configuration.singleHostAddress = true → addresses configuration.hostAddress (.v4 0)) ∧
      (configuration.singleHostAddress = false →
        ∀ address, addresses configuration.hostAddress address → address.isUnspecified = true) := by
  constructor
  · intro h
    have hport := h.port_lt
    refine ⟨hport, fun hsingle => ?_, fun hsingle address haddress => ?_⟩
    · exact (h.builds ((builds_single_iff hsingle _).mpr rfl)).single hsingle
    · have hbuilds : Builds addresses configuration ⟨address, configuration.port.toUInt16⟩ :=
        (builds_resolved_iff hsingle _).mpr ⟨haddress, (toUInt16_toNat_iff _).mpr hport⟩
      exact (h.builds hbuilds).all hsingle
  · intro h
    obtain ⟨hport, hsingle, hall⟩ := h
    refine .of_builds hport fun endpoint hbuilds => ?_
    refine ⟨?_, fun hflag => ?_, fun hflag => ?_⟩
    · cases hflag : configuration.singleHostAddress with
      | true =>
        rw [(builds_single_iff hflag _).mp hbuilds]
        exact (toUInt16_toNat_iff _).mpr hport
      | false => exact ((builds_resolved_iff hflag _).mp hbuilds).2
    · rw [(builds_single_iff hflag _).mp hbuilds]
      exact hsingle hflag
    · exact hall hflag _ ((builds_resolved_iff hflag _).mp hbuilds).1

end Listening

/-! ## 5. A server for the loopback address -/

/-- A single host address, 127.0.0.1, and the port 9999. -/
def Configuration.loopback : Configuration := ⟨true, ascii "127.0.0.1", 9999, 5⟩

/-- The text 127.0.0.1 names its address. -/
def loopbackAddress (host : Bytes) (address : Address) : Prop :=
  host = ascii "127.0.0.1" ∧ address = .v4 0x7F000001

/-- It listens on all addresses; with all addresses asked for it would listen on 127.0.0.1; and the
    port 75535 would be 9999. -/
theorem loopback_not_as_configured :
    let start := BaseServer.new.start .loopback .good
    start.2 = .returned ∧ start.1.acceptor = .listening ⟨.v4 0, 9999⟩ ∧
      ¬ ListensAsConfigured loopbackAddress .loopback ∧
      ¬ ListensAsConfigured loopbackAddress
        { Configuration.loopback with singleHostAddress := false } ∧
      ¬ ListensAsConfigured loopbackAddress { Configuration.loopback with port := 75535 } := by
  refine ⟨rfl, rfl, fun h => ?_, fun h => ?_, fun h => ?_⟩
  · have hany : Address.v4 0 = .v4 0x7F000001 :=
      ((h.builds ((builds_single_iff rfl _).mpr rfl)).single rfl).2
    cases hany
  · have hall := (h.builds ((builds_resolved_iff rfl ⟨.v4 0x7F000001, 9999⟩).mpr
      ⟨⟨rfl, rfl⟩, rfl⟩)).all rfl
    cases hall
  · exact absurd h.port_lt (by decide)

end BoostAsioWebServer
