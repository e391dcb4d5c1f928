import BitvmNode.Bitcoin.ChainView
import BitvmNode.Graphs.Status

/-!
# The transactions of a peg-out graph

A graph holds the pre-signed transactions of one operator slot.  Which connector each of them spends
is fixed when the graph is generated; `WiredGraph` carries that wiring, so that every result below
about a graph is about one that the generation can return.
-/

namespace BitvmNode.Pegout

open Reasoning Bitcoin Signing

/-- Where the connectors stand among the outputs of the transactions, as the transaction library
lays them out.  The library is not part of the repository: nothing below depends on more than the
one inequality stated here. -/
structure OutputTopology where
  (forceSkipConnector kickoffConnector prekickoffConnector connectorA : UInt32)
  (connectorB connectorC guardianConnector : UInt32)
  watchtowerConnector : Nat → UInt32
  ackConnector : Nat → UInt32
  connectorE : Nat → UInt32
  connectorF : Nat → UInt32
  verifierConnector : Nat → UInt32
  connectorD : Nat → UInt32
  forceSkip_ne_prekickoff : forceSkipConnector ≠ prekickoffConnector

structure PreSigned where
  tx : Transaction
  prevOuts : List TxOut
  deriving DecidableEq

structure GraphParameters where
  (graphId instanceId : Uuid)
  graphNonce : Nat
  operatorPubkey : String
  (watchtowerPubkeys watchtowerAckHashlocks : List Bytes)

structure BitvmGcGraph where
  (operatorPreSigned committeePreSigned : Bool)
  parameters : GraphParameters
  (curPrekickoff nextPrekickoff forceSkipKickoff quickChallenge : PreSigned)
  (challengeIncompleteKickoff pegin kickoff take1 : PreSigned)
  (challenge watchtowerChallengeInit : PreSigned)
  (watchtowerChallengeTimeouts operatorChallengeNacks : List PreSigned)
  (operatorCommitTimeout operatorAssert : PreSigned)
  (verifierAsserts disproves : List PreSigned)
  take2 : PreSigned

open BitvmGcGraph

namespace BitvmGcGraph

def watchtowerNum (g : BitvmGcGraph) : Nat := g.parameters.watchtowerPubkeys.length

def verifierNum (g : BitvmGcGraph) : Nat := g.verifierAsserts.length

def connectorOwners (g : BitvmGcGraph) : List PreSigned :=
  [g.pegin, g.curPrekickoff, g.nextPrekickoff, g.kickoff, g.watchtowerChallengeInit,
    g.operatorAssert] ++ g.verifierAsserts

def preSigned (g : BitvmGcGraph) : List PreSigned :=
  g.connectorOwners ++
    [g.forceSkipKickoff, g.quickChallenge, g.challengeIncompleteKickoff, g.take1, g.challenge,
      g.operatorCommitTimeout, g.take2] ++
    g.watchtowerChallengeTimeouts ++ g.operatorChallengeNacks ++ g.disproves

def transactions (g : BitvmGcGraph) : List Transaction := g.preSigned.map PreSigned.tx

section Connectors

variable (sha256 : Bytes → Bytes32) (topology : OutputTopology) (g : BitvmGcGraph)

def connectorZero : OutPoint := ⟨g.pegin.tx.computeTxid sha256, 0⟩

def curPrekickoffConnector : OutPoint :=
  ⟨g.curPrekickoff.tx.computeTxid sha256, topology.prekickoffConnector⟩

def kickoffConnector : OutPoint :=
  ⟨g.curPrekickoff.tx.computeTxid sha256, topology.kickoffConnector⟩

def nextForceSkipConnector : OutPoint :=
  ⟨g.nextPrekickoff.tx.computeTxid sha256, topology.forceSkipConnector⟩

def nextPrekickoffConnector : OutPoint :=
  ⟨g.nextPrekickoff.tx.computeTxid sha256, topology.prekickoffConnector⟩

def connectorA : OutPoint := ⟨g.kickoff.tx.computeTxid sha256, topology.connectorA⟩

def connectorB : OutPoint := ⟨g.kickoff.tx.computeTxid sha256, topology.connectorB⟩

def connectorC : OutPoint := ⟨g.kickoff.tx.computeTxid sha256, topology.connectorC⟩

def guardianConnector : OutPoint := ⟨g.kickoff.tx.computeTxid sha256, topology.guardianConnector⟩

def watchtowerConnector (i : Nat) : OutPoint :=
  ⟨g.watchtowerChallengeInit.tx.computeTxid sha256, topology.watchtowerConnector i⟩

def ackConnector (i : Nat) : OutPoint :=
  ⟨g.watchtowerChallengeInit.tx.computeTxid sha256, topology.ackConnector i⟩

def connectorE : OutPoint :=
  ⟨g.watchtowerChallengeInit.tx.computeTxid sha256, topology.connectorE g.watchtowerNum⟩

def connectorF : OutPoint :=
  ⟨g.watchtowerChallengeInit.tx.computeTxid sha256, topology.connectorF g.watchtowerNum⟩

def verifierConnector (i : Nat) : OutPoint :=
  ⟨g.operatorAssert.tx.computeTxid sha256, topology.verifierConnector i⟩

def connectorD : OutPoint :=
  ⟨g.operatorAssert.tx.computeTxid sha256, topology.connectorD g.verifierNum⟩

def proverConnector (verifierAssert : PreSigned) : OutPoint :=
  ⟨verifierAssert.tx.computeTxid sha256, 0⟩

end Connectors

end BitvmGcGraph

/-- A generated graph: each transaction spends its connectors, in the order in which the generation
passes them, there is one timeout and one NACK for every watchtower and one disprove for every
verifier, and no two transactions have one id. -/
structure WiredGraph (sha256 : Bytes → Bytes32)
    (topology : OutputTopology) extends BitvmGcGraph where
  ackHashlocks_length :
    parameters.watchtowerAckHashlocks.length = toBitvmGcGraph.watchtowerNum
  nextPrekickoff_spends : toBitvmGcGraph.curPrekickoffConnector sha256 topology ∈
    nextPrekickoff.tx.spends
  kickoff_spends : kickoff.tx.spends = [toBitvmGcGraph.kickoffConnector sha256 topology]
  forceSkipKickoff_spends : forceSkipKickoff.tx.spends =
    [toBitvmGcGraph.kickoffConnector sha256 topology,
      toBitvmGcGraph.nextForceSkipConnector sha256 topology]
  quickChallenge_spends : quickChallenge.tx.spends =
    [toBitvmGcGraph.guardianConnector sha256 topology,
      toBitvmGcGraph.nextForceSkipConnector sha256 topology]
  challengeIncompleteKickoff_spends : challengeIncompleteKickoff.tx.spends =
    [toBitvmGcGraph.guardianConnector sha256 topology,
      toBitvmGcGraph.nextPrekickoffConnector sha256 topology]
  take1_spends : take1.tx.spends =
    [toBitvmGcGraph.connectorZero sha256, toBitvmGcGraph.connectorA sha256 topology,
      toBitvmGcGraph.connectorB sha256 topology, toBitvmGcGraph.connectorC sha256 topology,
      toBitvmGcGraph.guardianConnector sha256 topology]
  challenge_spends : challenge.tx.spends = [toBitvmGcGraph.connectorA sha256 topology]
  watchtowerChallengeInit_spends : watchtowerChallengeInit.tx.spends =
    [toBitvmGcGraph.connectorB sha256 topology]
  watchtowerChallengeTimeouts_spends : watchtowerChallengeTimeouts.map (·.tx.spends) =
    (List.range toBitvmGcGraph.watchtowerNum).map fun i =>
      [toBitvmGcGraph.watchtowerConnector sha256 topology i,
        toBitvmGcGraph.ackConnector sha256 topology i]
  operatorChallengeNacks_spends : operatorChallengeNacks.map (·.tx.spends) =
    (List.range toBitvmGcGraph.watchtowerNum).map fun i =>
      [toBitvmGcGraph.ackConnector sha256 topology i, toBitvmGcGraph.connectorF sha256 topology]
  operatorCommitTimeout_spends : operatorCommitTimeout.tx.spends =
    [toBitvmGcGraph.connectorE sha256 topology, toBitvmGcGraph.connectorF sha256 topology]
  operatorAssert_spends : operatorAssert.tx.spends = [toBitvmGcGraph.connectorC sha256 topology]
  verifierAsserts_spends : verifierAsserts.map (·.tx.spends) =
    (List.range toBitvmGcGraph.verifierNum).map fun i =>
      [toBitvmGcGraph.verifierConnector sha256 topology i]
  disproves_spends : disproves.map (·.tx.spends) = verifierAsserts.map fun verifierAssert =>
    [proverConnector sha256 verifierAssert, toBitvmGcGraph.connectorD sha256 topology]
  take2_spends : take2.tx.spends =
    [toBitvmGcGraph.connectorZero sha256, toBitvmGcGraph.connectorD sha256 topology,
      toBitvmGcGraph.connectorF sha256 topology, toBitvmGcGraph.guardianConnector sha256 topology]
  distinct : (toBitvmGcGraph.transactions.map (Transaction.computeTxid sha256)).Nodup

namespace WiredGraph

variable {sha256 : Bytes → Bytes32} {topology : OutputTopology} (g : WiredGraph sha256 topology)

theorem curPrekickoff_mem : g.curPrekickoff.tx ∈ g.transactions := by
  simp [transactions, preSigned, connectorOwners]

theorem kickoff_mem : g.kickoff.tx ∈ g.transactions := by
  simp [transactions, preSigned, connectorOwners]

theorem quickChallenge_mem : g.quickChallenge.tx ∈ g.transactions := by
  simp [transactions, preSigned]

theorem challengeIncompleteKickoff_mem : g.challengeIncompleteKickoff.tx ∈ g.transactions := by
  simp [transactions, preSigned]

theorem take1_mem : g.take1.tx ∈ g.transactions := by
  simp [transactions, preSigned]

theorem take2_mem : g.take2.tx ∈ g.transactions := by
  simp [transactions, preSigned]

theorem watchtowerChallengeInit_mem : g.watchtowerChallengeInit.tx ∈ g.transactions := by
  simp [transactions, preSigned, connectorOwners]

theorem operatorAssert_mem : g.operatorAssert.tx ∈ g.transactions := by
  simp [transactions, preSigned, connectorOwners]

theorem disprove_mem {disprove : PreSigned} (h : disprove ∈ g.disproves) :
    disprove.tx ∈ g.transactions :=
  List.mem_map_of_mem (List.mem_append_right _ h)

theorem operatorCommitTimeout_mem : g.operatorCommitTimeout.tx ∈ g.transactions := by
  simp [transactions, preSigned]

theorem nack_mem {nack : PreSigned} (h : nack ∈ g.operatorChallengeNacks) :
    nack.tx ∈ g.transactions :=
  List.mem_map_of_mem (List.mem_append_left _ (List.mem_append_right _ h))

theorem nack_spends {nack : PreSigned} (h : nack ∈ g.operatorChallengeNacks) :
    ∃ i < g.watchtowerNum, nack.tx.spends =
      [g.ackConnector sha256 topology i, g.connectorF sha256 topology] := by
  have hmem : nack.tx.spends ∈ g.operatorChallengeNacks.map (·.tx.spends) :=
    List.mem_map_of_mem h
  rw [g.operatorChallengeNacks_spends] at hmem
  obtain ⟨i, hi, heq⟩ := List.mem_map.mp hmem
  exact ⟨i, List.mem_range.mp hi, heq.symm⟩

theorem disprove_spends {disprove : PreSigned} (h : disprove ∈ g.disproves) :
    ∃ verifierAssert ∈ g.verifierAsserts, disprove.tx.spends =
      [proverConnector sha256 verifierAssert, g.connectorD sha256 topology] := by
  have hmem : disprove.tx.spends ∈ g.disproves.map (·.tx.spends) := List.mem_map_of_mem h
  rw [g.disproves_spends] at hmem
  obtain ⟨verifierAssert, hverifier, heq⟩ := List.mem_map.mp hmem
  exact ⟨verifierAssert, hverifier, heq.symm⟩

theorem txid_ne_of_length {t u : Transaction} (ht : t ∈ g.transactions) (hu : u ∈ g.transactions)
    (h : t.spends.length ≠ u.spends.length) : t.computeTxid sha256 ≠ u.computeTxid sha256 := by
  intro hid
  have hsame : t = u := List.inj_on_of_nodup_map g.distinct ht hu hid
  exact h (by rw [hsame])

theorem watchtowerChallengeTimeouts_length :
    g.watchtowerChallengeTimeouts.length = g.watchtowerNum := by
  have h := congrArg List.length g.watchtowerChallengeTimeouts_spends
  rwa [List.length_map, List.length_map, List.length_range] at h

theorem operatorChallengeNacks_length : g.operatorChallengeNacks.length = g.watchtowerNum := by
  have h := congrArg List.length g.operatorChallengeNacks_spends
  rwa [List.length_map, List.length_map, List.length_range] at h

theorem txid_ne_of_challenge {p : PreSigned}
    (hp : p ∈ g.watchtowerChallengeInit :: g.operatorAssert :: g.verifierAsserts) :
    g.kickoff.tx.computeTxid sha256 ≠ p.tx.computeTxid sha256 ∧
      g.nextPrekickoff.tx.computeTxid sha256 ≠ p.tx.computeTxid sha256 := by
  have howners : (g.connectorOwners.map fun p => p.tx.computeTxid sha256).Nodup := by
    have h := g.distinct
    rw [transactions, List.map_map, preSigned] at h
    simp only [List.append_assoc, List.map_append] at h
    exact h.of_append_left
  obtain ⟨-, -, hnext, hkickoff, -⟩ : (_ ∧ _ ∧ _ ∧ _ ∧ _) := by
    simpa only [connectorOwners, List.cons_append, List.nil_append, List.map_cons,
      List.nodup_cons] using howners
  have hmem : p.tx.computeTxid sha256 ∈
      (g.watchtowerChallengeInit :: g.operatorAssert :: g.verifierAsserts).map
        fun p => p.tx.computeTxid sha256 := List.mem_map_of_mem hp
  exact ⟨fun h => hkickoff (h ▸ hmem), fun h => hnext (List.mem_cons_of_mem _ (h ▸ hmem))⟩

end WiredGraph

/-! ## A smallest graph

One watchtower and one verifier.  The hash is a polynomial in the bytes of the input, which keeps
the ids of these transactions apart and is quick to evaluate. -/

namespace Smallest

def topology : OutputTopology where
  forceSkipConnector := 0
  kickoffConnector := 1
  prekickoffConnector := 2
  connectorA := 0
  connectorB := 1
  connectorC := 2
  guardianConnector := 3
  watchtowerConnector i := 2 * UInt32.ofNat i
  ackConnector i := 2 * UInt32.ofNat i + 1
  connectorE n := 2 * UInt32.ofNat n
  connectorF n := 2 * UInt32.ofNat n + 1
  verifierConnector i := UInt32.ofNat i
  connectorD n := UInt32.ofNat n
  forceSkip_ne_prekickoff := by decide

def hash (input : Bytes) : Bytes32 :=
  beBytes32 (input.foldl (fun x b => (257 * x + b.toNat + 1) % 2 ^ 256) 0)

def txid (p : PreSigned) : Bytes32 := p.tx.computeTxid hash

def spending (outpoints : List OutPoint) (outputs : List TxOut) : PreSigned where
  tx := ⟨2, 0, outpoints.map fun o => ⟨o, [], 0xFFFFFFFF, []⟩, outputs⟩
  prevOuts := outpoints.map fun _ => ⟨5000, []⟩

def pegin : PreSigned := spending [⟨zero32, 0⟩] [⟨5000, []⟩]

def curPrekickoff : PreSigned := spending [⟨zero32, 1⟩] [⟨5000, []⟩, ⟨5000, []⟩, ⟨5000, []⟩]

def nextPrekickoff : PreSigned :=
  spending [⟨txid curPrekickoff, 2⟩] [⟨5000, []⟩, ⟨5000, []⟩, ⟨5000, []⟩]

def kickoffOn (cur : PreSigned) : PreSigned :=
  spending [⟨txid cur, 1⟩] [⟨5000, []⟩, ⟨5000, []⟩, ⟨5000, []⟩, ⟨5000, []⟩]

def initOn (kickoff : PreSigned) : PreSigned :=
  spending [⟨txid kickoff, 1⟩] [⟨5000, []⟩, ⟨5000, []⟩, ⟨5000, []⟩, ⟨5000, []⟩]

def assertOn (kickoff : PreSigned) : PreSigned :=
  spending [⟨txid kickoff, 2⟩] [⟨5000, []⟩, ⟨5000, []⟩]

def kickoff : PreSigned := kickoffOn curPrekickoff

def watchtowerChallengeInit : PreSigned := initOn kickoff

def unwired (graphId instanceId : Uuid) (graphNonce : Nat) (pegin cur next : PreSigned) :
    BitvmGcGraph :=
  let kickoff := kickoffOn cur
  let init := initOn kickoff
  let assert := assertOn kickoff
  let verifierAssert := spending [⟨txid assert, 0⟩] [⟨5000, []⟩]
  { operatorPreSigned := true
    committeePreSigned := true
    parameters := ⟨graphId, instanceId, graphNonce, "operator", [[0]], [[1]]⟩
    curPrekickoff := cur
    nextPrekickoff := next
    forceSkipKickoff := spending [⟨txid cur, 1⟩, ⟨txid next, 0⟩] []
    quickChallenge := spending [⟨txid kickoff, 3⟩, ⟨txid next, 0⟩] []
    challengeIncompleteKickoff := spending [⟨txid kickoff, 3⟩, ⟨txid next, 2⟩] []
    pegin := pegin
    kickoff := kickoff
    take1 := spending [⟨txid pegin, 0⟩, ⟨txid kickoff, 0⟩, ⟨txid kickoff, 1⟩, ⟨txid kickoff, 2⟩,
      ⟨txid kickoff, 3⟩] []
    challenge := spending [⟨txid kickoff, 0⟩] [⟨5000, []⟩]
    watchtowerChallengeInit := init
    watchtowerChallengeTimeouts := [spending [⟨txid init, 0⟩, ⟨txid init, 1⟩] []]
    operatorChallengeNacks := [spending [⟨txid init, 1⟩, ⟨txid init, 3⟩] []]
    operatorCommitTimeout := spending [⟨txid init, 2⟩, ⟨txid init, 3⟩] []
    operatorAssert := assert
    verifierAsserts := [verifierAssert]
    disproves := [spending [⟨txid verifierAssert, 0⟩, ⟨txid assert, 1⟩] []]
    take2 := spending [⟨txid pegin, 0⟩, ⟨txid assert, 1⟩, ⟨txid init, 3⟩, ⟨txid kickoff, 3⟩] [] }

def wired (graphId instanceId : Uuid) (graphNonce : Nat) (pegin cur next : PreSigned)
    (hnext : ⟨txid cur, 2⟩ ∈ next.tx.spends)
    (distinct : ((unwired graphId instanceId graphNonce pegin cur next).transactions.map
      (Transaction.computeTxid hash)).Nodup) : WiredGraph hash topology where
  toBitvmGcGraph := unwired graphId instanceId graphNonce pegin cur next
  ackHashlocks_length := rfl
  nextPrekickoff_spends := hnext
  kickoff_spends := rfl
  forceSkipKickoff_spends := rfl
  quickChallenge_spends := rfl
  challengeIncompleteKickoff_spends := rfl
  take1_spends := rfl
  challenge_spends := rfl
  watchtowerChallengeInit_spends := rfl
  watchtowerChallengeTimeouts_spends := rfl
  operatorChallengeNacks_spends := rfl
  operatorCommitTimeout_spends := rfl
  operatorAssert_spends := rfl
  verifierAsserts_spends := rfl
  disproves_spends := by
    simp only [unwired, List.map_cons, List.map_nil]
    rfl
  take2_spends := rfl
  distinct := distinct

def graph : WiredGraph hash topology :=
  wired 1 2 0 pegin curPrekickoff nextPrekickoff List.mem_cons_self (by decide +kernel)

end Smallest

end BitvmNode.Pegout
