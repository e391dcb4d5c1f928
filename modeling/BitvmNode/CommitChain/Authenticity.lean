import BitvmNode.Bitcoin.ChainView
import BitvmNode.CommitChain.Chain
import BitvmNode.CommitChain.Matching

/-!
# Authenticity of the commit chain

Every accepted commit after the first spends the connector of the one before it with the signatures
of the publisher set named there, and the state is what the last transaction commits to.
-/

namespace BitvmNode.CommitChain

open Reasoning Bitcoin

variable (env : Env)

structure CommitsTo (tx : Transaction) (sequencerSetHash genesisEvmBlockHash programHistoryRoot
    proofCheckpointRoot : Bytes32) (ids : AuthorizedProgramIds) (keys : List PublicKey)
    (threshold : Nat) : Prop where
  digest : extractCommitChainCommitment tx.output = .ok (env.sha256 (commitmentPreimage
    sequencerSetHash genesisEvmBlockHash programHistoryRoot proofCheckpointRoot ids))
  connector : (tx.output[0]?.map TxOut.scriptPubkey) =
    some (Script.newP2wsh env.sha256 (multisigScript keys threshold))
  valid : ValidPublisherSet keys threshold

variable {a b c d : Bytes32}

theorem commitmentPreimage_inj {a' b' c' d' : Bytes32} {ids ids' : AuthorizedProgramIds}
    (h : commitmentPreimage a b c d ids = commitmentPreimage a' b' c' d' ids') :
    a = a' ∧ b = b' ∧ c = c' ∧ d = d' ∧ ids = ids' := by
  have peel {xs ys : Bytes} {u v : Bytes32} (h : xs ++ u.toList = ys ++ v.toList) :
      xs = ys ∧ u = v := by
    obtain ⟨hxs, huv⟩ := List.append_inj' h (by simp)
    exact ⟨hxs, Vector.toList_inj.mp huv⟩
  obtain ⟨h, hwatchtower⟩ := peel h
  obtain ⟨h, hcommit⟩ := peel h
  obtain ⟨h, hstate⟩ := peel h
  obtain ⟨h, hheader⟩ := peel h
  obtain ⟨h, hd⟩ := peel h
  obtain ⟨h, hc⟩ := peel h
  obtain ⟨h, hb⟩ := peel h
  obtain ⟨-, ha⟩ := peel h
  cases ids
  cases ids'
  simp only [AuthorizedProgramIds.mk.injEq]
  exact ⟨ha, hb, hc, hd, hheader, hstate, hcommit, hwatchtower⟩

theorem CommitsTo.unique {tx : Transaction} {a' b' c' d' : Bytes32}
    {ids ids' : AuthorizedProgramIds} {keys keys' : List PublicKey} {m n : Nat}
    (h : CommitsTo env tx a b c d ids keys m) (h' : CommitsTo env tx a' b' c' d' ids' keys' n) :
    (a = a' ∧ b = b' ∧ c = c' ∧ d = d' ∧ ids = ids' ∧ keys = keys' ∧ m = n) ∨
      CollisionIn env.sha256 [commitmentPreimage a b c d ids, commitmentPreimage a' b' c' d' ids',
        multisigScript keys m, multisigScript keys' n] := by
  have hdigest : env.sha256 (commitmentPreimage a b c d ids) =
      env.sha256 (commitmentPreimage a' b' c' d' ids') := by
    have he := h.digest.symm.trans h'.digest
    exact Except.ok.inj he
  have hscript : env.sha256 (multisigScript keys m) = env.sha256 (multisigScript keys' n) :=
    Script.newP2wsh_inj (Option.some.inj (h.connector.symm.trans h'.connector))
  by_cases hpre : commitmentPreimage a b c d ids = commitmentPreimage a' b' c' d' ids'
  · by_cases hmulti : multisigScript keys m = multisigScript keys' n
    · left
      obtain ⟨ha, hb, hc, hd, hids⟩ := commitmentPreimage_inj hpre
      obtain ⟨hkeys, hmn⟩ := multisigScript_inj h.valid h'.valid hmulti
      exact ⟨ha, hb, hc, hd, hids, hkeys, hmn⟩
    · right
      exact ⟨_, by simp, _, by simp, hmulti, hscript⟩
  · right
    exact ⟨_, by simp, _, by simp, hpre, hdigest⟩

theorem commitChainCommitmentDigest_eq_some {sha256 : Bytes → Bytes32} {e : Bytes32}
    {ids : AuthorizedProgramIds} :
    commitChainCommitmentDigest sha256 a b c d ids = some e ↔ c ≠ zero32 ∧ d ≠ zero32 ∧
    ids.validate = .ok () ∧
        e = sha256 (commitmentPreimage a b c d ids) := by
  unfold commitChainCommitmentDigest
  rw [guard_bind_eq_some, guard_bind_eq_some]
  cases ids.validate with
  | error e => simp [Except.toOption]
  | ok u => simp [Except.toOption, eq_comm]

namespace CommitChainState

variable {env} {s s' : CommitChainState} {commit : CircuitCommit} {u : Unit}

theorem checkCommitment_eq_some (h : checkCommitment env commit = some u) :
    ∃ sequencerSetHash, env.sequencerHash commit.sequencers = some (.sha256 sequencerSetHash) ∧
      extractCommitChainCommitment commit.commitTxn.output = .ok (env.sha256 (commitmentPreimage
        sequencerSetHash commit.genesisEvmBlockHash commit.programHistoryRoot
        commit.proofCheckpointRoot commit.authorizedProgramIds)) := by
  obtain ⟨actual, hactual, h⟩ := Option.bind_eq_some_iff.mp h
  obtain ⟨hash, hhash, h⟩ := Option.bind_eq_some_iff.mp h
  cases hash with
  | none => cases h
  | sha256 sequencerSetHash =>
    obtain ⟨expected, hexpected, h⟩ := Option.bind_eq_some_iff.mp h
    obtain ⟨-, -, -, rfl⟩ := commitChainCommitmentDigest_eq_some.mp hexpected
    rw [guard_eq_some] at h
    refine ⟨sequencerSetHash, hhash, ?_⟩
    rw [← h]
    cases hextract : extractCommitChainCommitment commit.commitTxn.output with
    | error e => simp [hextract, Except.toOption] at hactual
    | ok d =>
      rw [hextract] at hactual
      rw [Option.some.inj hactual]

theorem checkNextConnector_eq_some (h : checkNextConnector env commit = some u) :
    ValidPublisherSet commit.activePublisherSet.1 commit.activePublisherSet.2.toNat ∧
      (commit.commitTxn.output[0]?.map TxOut.scriptPubkey) =
        some (Script.newP2wsh env.sha256 (multisigScript commit.activePublisherSet.1
          commit.activePublisherSet.2.toNat)) := by
  obtain ⟨script, hscript, h⟩ := Option.bind_eq_some_iff.mp h
  obtain ⟨output, houtput, h⟩ := Option.bind_eq_some_iff.mp h
  obtain ⟨hvalid, rfl⟩ := createSequencerUpdateScript_eq_some.mp hscript
  rw [guard_eq_some] at h
  refine ⟨hvalid, ?_⟩
  rw [houtput, ← h]
  rfl

/-- The input of `tx` that spends the connector of `prev`, with its publisher signatures. -/
def SpendsConnector (env : Env) (prev tx : Transaction) (keys : List PublicKey) (threshold : Nat) :
    Prop :=
  ∃ txin prevout, tx.input[0]? = some txin ∧
    txin.previousOutput = ⟨prev.computeTxid env.sha256, 0⟩ ∧ prev.output[0]? = some prevout ∧
    ValidPublisherSet keys threshold ∧
    prevout.scriptPubkey = Script.newP2wsh env.sha256 (multisigScript keys threshold) ∧
    ThresholdSigned env.toSecp
      (fun ty => p2wshSignatureHash env.sha256 tx 0 (multisigScript keys threshold)
        prevout.value ty)
      keys threshold (rawSigs txin.witness)

theorem checkUpdateConnector_eq_some {tx : Transaction}
    (h : s.checkUpdateConnector env tx = some u) :
    SpendsConnector env s.commitTxn tx s.publisherPublicKeys s.threshold.toNat := by
  obtain ⟨txin, htxin, h⟩ := Option.bind_eq_some_iff.mp h
  rw [guard_bind_eq_some, guard_bind_eq_some] at h
  obtain ⟨htxid, hvout, h⟩ := h
  obtain ⟨prevout, hprevout, h⟩ := Option.bind_eq_some_iff.mp h
  obtain ⟨script, hscript, h⟩ := Option.bind_eq_some_iff.mp h
  obtain ⟨hvalid, rfl⟩ := createSequencerUpdateScript_eq_some.mp hscript
  obtain ⟨valid, hverify, h⟩ := Option.bind_eq_some_iff.mp h
  rw [guard_eq_some] at h
  rw [h] at hverify
  obtain ⟨txin', htxin', hpubkey, -, hsigned⟩ :=
    verifyP2wshMultisigWitness_true env.toSecp hvalid hverify
  rw [htxin, Option.some.injEq] at htxin'
  subst htxin'
  refine ⟨txin, prevout, htxin, ?_, hprevout, hvalid, hpubkey, hsigned⟩
  rw [← htxid, ← hvout]

theorem applyOne_eq_some (h : s.applyOne env commit = some s') :
    commit.genesisTxid = s.genesisTxid ∧
      (s.commitTxn.output = [] → commit.commitTxn.computeTxid env.sha256 = s.genesisTxid) ∧
      (s.commitTxn.output ≠ [] → SpendsConnector env s.commitTxn commit.commitTxn
        s.publisherPublicKeys s.threshold.toNat) ∧
      (∃ sequencerSetHash, env.sequencerHash commit.sequencers = some (.sha256 sequencerSetHash) ∧
        CommitsTo env commit.commitTxn sequencerSetHash commit.genesisEvmBlockHash
          commit.programHistoryRoot commit.proofCheckpointRoot commit.authorizedProgramIds
          commit.activePublisherSet.1 commit.activePublisherSet.2.toNat) ∧
      s' = { s with
          sequencers := commit.sequencers
          commitTxn := commit.commitTxn.stripWitness
          publisherPublicKeys := commit.activePublisherSet.1
          threshold := commit.activePublisherSet.2
          blockHeight := commit.blockHeight
          proofCheckpointRoot := commit.proofCheckpointRoot
          authorizedProgramIds := commit.authorizedProgramIds } := by
  unfold applyOne at h
  rw [guard_bind_eq_some] at h
  obtain ⟨hgenesis, h⟩ := h
  obtain ⟨_, hprev, h⟩ := Option.bind_eq_some_iff.mp h
  obtain ⟨_, hcommitment, h⟩ := Option.bind_eq_some_iff.mp h
  obtain ⟨_, hnext, h⟩ := Option.bind_eq_some_iff.mp h
  obtain ⟨sequencerSetHash, hhash, hdigest⟩ := checkCommitment_eq_some hcommitment
  obtain ⟨hvalid, hconnector⟩ := checkNextConnector_eq_some hnext
  refine ⟨hgenesis, ?_, ?_, ⟨sequencerSetHash, hhash, hdigest, hconnector, hvalid⟩,
    (Option.some.inj h).symm⟩
  · intro hempty
    simp only [checkPrevCommit, hempty] at hprev
    exact guard_eq_some.mp hprev
  · intro hne
    have hhas : (!s.commitTxn.output.isEmpty) = true := by
      cases houtput : s.commitTxn.output with
      | nil => exact absurd houtput hne
      | cons o os => rfl
    simp only [checkPrevCommit, hhas, if_true] at hprev
    exact checkUpdateConnector_eq_some hprev

end CommitChainState

def CircuitCommit.stateAfter (commit : CircuitCommit) (genesisTxid : Bytes32) :
    CommitChainState where
  blockHeight := commit.blockHeight
  commitTxn := commit.commitTxn.stripWitness
  genesisTxid := genesisTxid
  sequencers := commit.sequencers
  publisherPublicKeys := commit.activePublisherSet.1
  threshold := commit.activePublisherSet.2
  proofCheckpointRoot := commit.proofCheckpointRoot
  authorizedProgramIds := commit.authorizedProgramIds

def CircuitCommit.Committed (commit : CircuitCommit) : Prop :=
  ∃ sequencerSetHash, env.sequencerHash commit.sequencers = some (.sha256 sequencerSetHash) ∧
    CommitsTo env commit.commitTxn sequencerSetHash commit.genesisEvmBlockHash
      commit.programHistoryRoot commit.proofCheckpointRoot commit.authorizedProgramIds
      commit.activePublisherSet.1 commit.activePublisherSet.2.toNat

def CircuitCommit.Follows (prev commit : CircuitCommit) : Prop :=
  CommitChainState.SpendsConnector env prev.commitTxn commit.commitTxn prev.activePublisherSet.1
    prev.activePublisherSet.2.toNat

structure CommitInv (g : Bytes32) (commits : List CircuitCommit) (s : CommitChainState) : Prop where
  genesis : s.genesisTxid = g
  fresh : commits = [] → s.commitTxn.output = []
  first : ∀ c, commits[0]? = some c → c.commitTxn.computeTxid env.sha256 = g
  follows : ∀ i prev c, commits[i]? = some prev → commits[i + 1]? = some c → prev.Follows env c
  committed : ∀ c ∈ commits, c.Committed env
  last : ∀ c, commits.getLast? = some c → s = c.stateAfter g

theorem CommitInv.step {g : Bytes32} {commits : List CircuitCommit} {s s' : CommitChainState}
    {commit : CircuitCommit} (inv : CommitInv env g commits s)
    (hstep : s.applyOne env commit = some s') : CommitInv env g (commits ++ [commit]) s' := by
  obtain ⟨hgenesis, hfirst, hspends, hcommitted, rfl⟩ := CommitChainState.applyOne_eq_some hstep
  refine
    { genesis := inv.genesis,
      fresh := by simp, first := ?_, follows := ?_, committed := ?_, last := ?_ }
  · intro c hc
    cases commits with
    | nil =>
      rw [← inv.genesis, ← hfirst (inv.fresh rfl)]
      cases hc
      rfl
    | cons c0 cs => exact inv.first c hc
  · intro i prev c hprev hc
    have hi : i + 1 < (commits ++ [commit]).length := (List.getElem?_eq_some_iff.mp hc).1
    rw [List.length_append, List.length_singleton] at hi
    rw [List.getElem?_append_left (by omega)] at hprev
    by_cases hin : i + 1 < commits.length
    · rw [List.getElem?_append_left hin] at hc
      exact inv.follows i prev c hprev hc
    · -- the new commit follows the last one, whose transaction is the stored one
      have hlen : commits.length = i + 1 := by omega
      rw [← hlen, List.getElem?_concat_length, Option.some.injEq] at hc
      subst hc
      have hlast : commits.getLast? = some prev := by
        rw [List.getLast?_eq_getElem?, hlen, Nat.add_sub_cancel]
        exact hprev
      have hs := inv.last prev hlast
      obtain ⟨_, -, hto⟩ := inv.committed prev (List.mem_of_getElem? hprev)
      rw [hs] at hspends
      obtain ⟨txin, prevout, htxin, hout, hrest⟩ := hspends fun hempty => by
        have hconnector := hto.connector
        rw [show prev.commitTxn.output = [] from hempty] at hconnector
        cases hconnector
      refine ⟨txin, prevout, htxin, ?_, hrest⟩
      rw [hout]
      change OutPoint.mk (prev.commitTxn.stripWitness.computeTxid env.sha256) 0 = _
      rw [Transaction.computeTxid_stripWitness]
  · intro c hc
    rcases List.mem_append.mp hc with hc | hc
    · exact inv.committed c hc
    · rw [List.mem_singleton] at hc
      rw [hc]
      exact hcommitted
  · intro c hc
    rw [List.getLast?_concat, Option.some.injEq] at hc
    rw [← hc, ← inv.genesis]
    rfl

theorem CommitInv.run {g : Bytes32} {commits : List CircuitCommit} {s : CommitChainState}
    (h : (CommitChainState.new g).applyCommit env commits = some s) :
    CommitInv env g commits s := by
  have inv : CommitInv env g [] (CommitChainState.new g) :=
    ⟨rfl, fun _ => rfl, by simp, by simp, by simp, by simp⟩
  have hrun := foldlM_invariant (CommitInv env g) (fun _ _ _ _ hinv hs => hinv.step env hs) inv h
  rwa [List.nil_append] at hrun

theorem applyBatches_eq_applyCommit (s : CommitChainState) (batches : List (List CircuitCommit)) :
    s.applyBatches env batches = s.applyCommit env batches.flatten :=
  foldlM_flatten (CommitChainState.applyOne env) s batches

/-- The chain of accepted commits, and what its state is bound by. -/
theorem commitChain_authentic (g : Bytes32) (batches : List (List CircuitCommit)) :
    (CommitChainState.new g).applyBatches env batches =
      (CommitChainState.new g).applyCommit env batches.flatten ∧
      ∀ s, (CommitChainState.new g).applyBatches env batches = some s → s.genesisTxid = g ∧
        (∀ c, batches.flatten[0]? = some c → c.commitTxn.computeTxid env.sha256 = g) ∧
        (∀ i prev c, batches.flatten[i]? = some prev → batches.flatten[i + 1]? = some c →
          prev.Follows env c) ∧
        (∀ c, batches.flatten.getLast? = some c → s.commitTxn = c.commitTxn.stripWitness ∧
          ∃ sequencerSetHash genesisEvmBlockHash programHistoryRoot,
            env.sequencerHash s.sequencers = some (.sha256 sequencerSetHash) ∧
            CommitsTo env s.commitTxn sequencerSetHash genesisEvmBlockHash programHistoryRoot
              s.proofCheckpointRoot s.authorizedProgramIds s.publisherPublicKeys s.threshold.toNat ∧
            ∀ a b e checkpoint ids keys n, CommitsTo env s.commitTxn a b e checkpoint ids keys n →
                (a = sequencerSetHash ∧ checkpoint = s.proofCheckpointRoot ∧
                    ids = s.authorizedProgramIds ∧ keys = s.publisherPublicKeys ∧
                    n = s.threshold.toNat) ∨
                  CollisionIn env.sha256 [commitmentPreimage a b e checkpoint ids,
                      commitmentPreimage sequencerSetHash genesisEvmBlockHash programHistoryRoot
                        s.proofCheckpointRoot s.authorizedProgramIds,
                      multisigScript keys n,
                      multisigScript s.publisherPublicKeys s.threshold.toNat]) := by
  refine ⟨applyBatches_eq_applyCommit env _ _, ?_⟩
  intro s hs
  rw [applyBatches_eq_applyCommit] at hs
  have inv := CommitInv.run env hs
  refine ⟨inv.genesis, inv.first, inv.follows, ?_⟩
  intro c hc
  obtain ⟨sequencerSetHash, hhash, hto⟩ := inv.committed c (List.mem_of_getLast? hc)
  have hto' : CommitsTo env c.commitTxn.stripWitness sequencerSetHash c.genesisEvmBlockHash
      c.programHistoryRoot c.proofCheckpointRoot c.authorizedProgramIds c.activePublisherSet.1
      c.activePublisherSet.2.toNat := ⟨hto.digest, hto.connector, hto.valid⟩
  rw [inv.last c hc]
  refine ⟨rfl, sequencerSetHash, c.genesisEvmBlockHash, c.programHistoryRoot, hhash, hto', ?_⟩
  intro a b e checkpoint ids keys n hother
  rcases hother.unique env hto' with ⟨ha, -, -, hd, hids, hkeys, hn⟩ | hcol
  · exact Or.inl ⟨ha, hd, hids, hkeys, hn⟩
  · exact Or.inr hcol

/-! ### Two commits

A two-of-three publisher set signs over to a one-of-two set.  The library functions are given by
their values on the keys and signatures that occur. -/

namespace Example

def publicKey (x : Nat) : PublicKey := ⟨(beBytes 33 x).toArray, by simp⟩

def key0 := publicKey 0x034f355bdcb7cc0af728ef3cceb9615d90684bb5b2ca5f859ab0f0b704075871aa

def key1 := publicKey 0x02466d7fcae563e5cb09a0d1870bb580344804617879a14949cf22285f1bae3f27

def key2 := publicKey 0x023c72addb4fdf09af94f0c94d7fe92a386a7e70cf8a1d85916386bb2535c7b1b1

def message : Bytes32 :=
  beBytes32 0x25c329cb617e44d291f5be6507d173e1e1f3a8eda57965ea64667bf54563664c

def r0 : Nat := 0x3e787eacfb8207a0f9685830757c02b6d1b32a2284e1c1172a04412f3444b8e1

def s0 : Nat := 0x55eedd764fd6e8dd58571d1d0a742d9303489623a3fd0d5704b6faab7ac7c802

def r2 : Nat := 0x75ff89d2506d377c49f3dfc0139829bf3c3c7e4df6aa9031fa047d2e49f55c71

def s2 : Nat := 0x5d8c57d95dbd706bb281612fb06e6b1afad1cc9d45b25f26134a7c1342f8294f

def der (r s : Nat) : Bytes :=
  [0x30, 0x44, 0x02, 0x20] ++ beBytes 32 r ++ [0x02, 0x20] ++ beBytes 32 s

def der0 : Bytes := der r0 s0

def der2 : Bytes := der r2 s2

def signature0 : Bytes := beBytes 32 r0 ++ beBytes 32 s0

def signature2 : Bytes := beBytes 32 r2 ++ beBytes 32 s2

def sequencer : SequencerInfo where
  address := "cc1b07838e387deacd0e5232e1e8b49f4c29e484"
  pubKey := beBytes 33 0x032c0b7cf95324a07d05398b240174dc0c2be444d96b159aa6c7f7b1e668680991
  power := 10
  name := none

def sequencerSetHash : Bytes32 :=
  beBytes32 0x47a7183aebeb4fa4bb358caafc2dceb1a568e128d11a1bfa7565af3412ae6159

def library : Env where
  sha256 := Sha256.digest
  fromDer := fun der =>
    if der = der0 then some signature0 else if der = der2 then some signature2 else none
  verifyEcdsa := fun msg sig pk =>
    msg = message ∧ ((sig = signature0 ∧ pk = key0) ∨ (sig = signature2 ∧ pk = key2))
  sequencerHash := fun sequencers =>
    if sequencers = [sequencer] then some (.sha256 sequencerSetHash) else none

def ids : AuthorizedProgramIds := ⟨beBytes32 1, beBytes32 2, beBytes32 3, beBytes32 4⟩

def outputs (value : UInt64) (keys : List PublicKey) (threshold : Nat)
    (programHistoryRoot proofCheckpointRoot : Bytes32) : List TxOut :=
  [⟨value, Script.newP2wsh Sha256.digest (multisigScript keys threshold)⟩,
    ⟨0, Script.opReturn :: 0x20 :: (Sha256.digest (commitmentPreimage sequencerSetHash
      (beBytes32 0xe0) programHistoryRoot proofCheckpointRoot ids)).toList⟩]

def tx0 : Transaction where
  version := 2
  lockTime := 0
  input := [⟨⟨beBytes32 0x55, 1⟩, [], 0xFFFFFFFF, []⟩]
  output := outputs 10000 [key0, key1, key2] 2 (beBytes32 0xa0) (beBytes32 0xb0)

def genesisTxid : Bytes32 :=
  beBytes32 0xd03875a8640feefb5d67a647752c55baab79e220c06e18f477916659877a701b

def tx1 : Transaction where
  version := 2
  lockTime := 0
  input :=
    [⟨⟨genesisTxid, 0⟩, [], 0xFFFFFFFF,
      [[], der0 ++ [1], der2 ++ [1], multisigScript [key0, key1, key2] 2]⟩]
  output := outputs 9000 [key0, key1] 1 (beBytes32 0xa1) (beBytes32 0xb1)

def commit0 : CircuitCommit where
  commitTxn := tx0
  genesisTxid := genesisTxid
  publisherPublicKeys := [key0, key1, key2]
  threshold := 2
  nextPublisherPublicKeys := none
  nextThreshold := none
  sequencers := [sequencer]
  genesisEvmBlockHash := beBytes32 0xe0
  programHistoryRoot := beBytes32 0xa0
  blockHeight := 100
  proofCheckpointRoot := beBytes32 0xb0
  authorizedProgramIds := ids

def commit1 : CircuitCommit where
  commitTxn := tx1
  genesisTxid := genesisTxid
  publisherPublicKeys := [key0, key1, key2]
  threshold := 2
  nextPublisherPublicKeys := some [key0, key1]
  nextThreshold := some 1
  sequencers := [sequencer]
  genesisEvmBlockHash := beBytes32 0xe0
  programHistoryRoot := beBytes32 0xa1
  blockHeight := 101
  proofCheckpointRoot := beBytes32 0xb1
  authorizedProgramIds := ids

end Example

open Example

theorem commitChain_authentic_two : (CommitChainState.new genesisTxid).applyBatches library
        [[commit0], [commit1]] =
      some (commit1.stateAfter genesisTxid) ∧
    commit0.Follows library commit1 := by
  have haccept : (CommitChainState.new genesisTxid).applyBatches library
      [[commit0], [commit1]] =
        some (commit1.stateAfter genesisTxid) := by decide +kernel
  obtain ⟨-, h⟩ := commitChain_authentic library genesisTxid [[commit0], [commit1]]
  obtain ⟨-, -, hfollows, -⟩ := h _ haccept
  exact ⟨haccept, hfollows 0 commit0 commit1 rfl rfl⟩

/-- The block height of the state is whatever the commit says: one transaction, two states. -/
theorem blockHeight_not_bound :
    let other := { commit0 with blockHeight := 7 }
    other.commitTxn = commit0.commitTxn ∧
      (CommitChainState.new genesisTxid).applyBatches library [[commit0]] =
        some (commit0.stateAfter genesisTxid) ∧
      (CommitChainState.new genesisTxid).applyBatches library [[other]] =
        some (other.stateAfter genesisTxid) ∧
      commit0.stateAfter genesisTxid ≠ other.stateAfter genesisTxid := by
  decide +kernel

def CircuitCommit.preimages (commit : CircuitCommit) : List Bytes :=
  match env.sequencerHash commit.sequencers with
  | some (.sha256 sequencerSetHash) =>
      [commitmentPreimage sequencerSetHash commit.genesisEvmBlockHash
      commit.programHistoryRoot commit.proofCheckpointRoot commit.authorizedProgramIds,
      multisigScript commit.activePublisherSet.1 commit.activePublisherSet.2.toNat]
  | _ => []

/-- The two commits name the same sequencers, roots, programs and publishers. -/
structure CircuitCommit.Agrees (commit other : CircuitCommit) : Prop where
  sequencers : env.sequencerHash commit.sequencers = env.sequencerHash other.sequencers
  genesisEvmBlockHash : commit.genesisEvmBlockHash = other.genesisEvmBlockHash
  programHistoryRoot : commit.programHistoryRoot = other.programHistoryRoot
  proofCheckpointRoot : commit.proofCheckpointRoot = other.proofCheckpointRoot
  authorizedProgramIds : commit.authorizedProgramIds = other.authorizedProgramIds
  publishers : commit.activePublisherSet = other.activePublisherSet

theorem CircuitCommit.Committed.agrees {commit other : CircuitCommit} (h : commit.Committed env)
    (h' : other.Committed env)
    (hsame : commit.commitTxn.stripWitness = other.commitTxn.stripWitness) :
    commit.Agrees env other ∨
    CollisionIn env.sha256 (commit.preimages env ++ other.preimages env) := by
  obtain ⟨hash, hhash, hto⟩ := h
  obtain ⟨hash', hhash', hto'⟩ := h'
  have houtput : other.commitTxn.stripWitness.output = commit.commitTxn.stripWitness.output := by
    rw [hsame]
  change other.commitTxn.output = commit.commitTxn.output at houtput
  have hother : CommitsTo env commit.commitTxn hash' other.genesisEvmBlockHash
      other.programHistoryRoot other.proofCheckpointRoot other.authorizedProgramIds
        other.activePublisherSet.1
      other.activePublisherSet.2.toNat :=
    ⟨houtput ▸ hto'.digest, houtput ▸ hto'.connector, hto'.valid⟩
  rcases hto.unique env hother with ⟨hset, hblock, hhistory, hcheckpoint, hids, hkeys, hthreshold⟩ |
    hcol
  · left
    exact ⟨by rw [hhash, hhash', hset], hblock, hhistory, hcheckpoint, hids,
      Prod.ext hkeys (UInt16.toNat_inj.mp hthreshold)⟩
  · right
    apply hcol.mono
    simp [CircuitCommit.preimages, hhash, hhash']

section Agreement

variable {g : Bytes32} {batches batches' : List (List CircuitCommit)} {s s' : CommitChainState}

/-- On a chain that spends no output twice nobody can show two histories from one genesis: commits
at the same place have the same transaction and agree on what it commits to. -/
theorem commit_histories_agree (h : (CommitChainState.new g).applyBatches env batches = some s)
    (h' : (CommitChainState.new g).applyBatches env batches' = some s')
    (btc : ChainView env.sha256 ((batches.flatten ++ batches'.flatten).map CircuitCommit.commitTxn))
    (hconfirmed : ∀ commit ∈ batches.flatten ++ batches'.flatten,
      btc.isConfirmed (commit.commitTxn.computeTxid env.sha256) = true) {i : Nat} {commit other :
        CircuitCommit}
    (hcommit : batches.flatten[i]? = some commit) (hother : batches'.flatten[i]? = some other) :
    commit.commitTxn.stripWitness = other.commitTxn.stripWitness ∧
      (commit.Agrees env other ∨
        CollisionIn env.sha256 (commit.preimages env ++ other.preimages env)) := by
  rw [applyBatches_eq_applyCommit] at h h'
  have inv := CommitInv.run env h
  have inv' := CommitInv.run env h'
  have hspends {prev commit : CircuitCommit} (hfollows : prev.Follows env commit) :
      (⟨prev.commitTxn.computeTxid env.sha256, 0⟩ : OutPoint) ∈ commit.commitTxn.spends := by
    obtain ⟨txin, prevout, htxin, hout, -⟩ := hfollows
    exact List.mem_map.mpr ⟨txin, List.mem_of_getElem? htxin, hout⟩
  have hleft {c : CircuitCommit} {j : Nat} (hc : batches.flatten[j]? = some c) :
      c ∈ batches.flatten ++ batches'.flatten := List.mem_append_left _ (List.mem_of_getElem? hc)
  have hright {c : CircuitCommit} {j : Nat} (hc : batches'.flatten[j]? = some c) :
      c ∈ batches.flatten ++ batches'.flatten := List.mem_append_right _ (List.mem_of_getElem? hc)
  -- both transactions spend the connector of the one before, which has one spender
  have htxid : commit.commitTxn.computeTxid env.sha256 =
    other.commitTxn.computeTxid env.sha256 := by
    induction i generalizing commit other with
    | zero => rw [inv.first commit hcommit, inv'.first other hother]
    | succ i ih =>
      have hi : i < batches.flatten.length :=
        Nat.lt_of_succ_lt (List.getElem?_eq_some_iff.mp hcommit).1
      have hi' : i < batches'.flatten.length :=
        Nat.lt_of_succ_lt (List.getElem?_eq_some_iff.mp hother).1
      have hprev := List.getElem?_eq_getElem hi
      have hprev' := List.getElem?_eq_getElem hi'
      have hshared := hspends (inv'.follows i _ _ hprev' hother)
      rw [← ih hprev hprev'] at hshared
      exact Ledger.txid_eq_of_shared (List.mem_map_of_mem (hleft hcommit))
        (List.mem_map_of_mem (hright hother)) (hconfirmed _ (hleft hcommit))
          (hconfirmed _ (hright hother))
        (hspends (inv.follows i _ _ hprev hcommit)) hshared
  have hsame : commit.commitTxn.stripWitness = other.commitTxn.stripWitness :=
    btc.collisionFree _ (List.mem_append_right _ (List.mem_map_of_mem (hleft hcommit))) _
      (List.mem_append_right _ (List.mem_map_of_mem (hright hother))) htxid
  exact ⟨hsame, (inv.committed commit (List.mem_of_getElem? hcommit)).agrees env
    (inv'.committed other (List.mem_of_getElem? hother)) hsame⟩

end Agreement

def Example.ledger : ChainView Sha256.digest [tx0, tx1, tx0, tx1] where
  confirmed := [tx0, tx1]
  mempool := []
  collisionFree := by decide +kernel
  spentOnce := by decide +kernel

theorem commit_histories_agree_two : commit1.Agrees library commit1 ∨
    CollisionIn Sha256.digest
      (commit1.preimages library ++ commit1.preimages library) := by
  have hsplit : (CommitChainState.new genesisTxid).applyBatches library
      [[commit0], [commit1]] = some (commit1.stateAfter genesisTxid) := by decide +kernel
  have hwhole : (CommitChainState.new genesisTxid).applyBatches library
      [[commit0, commit1]] = some (commit1.stateAfter genesisTxid) := by
    rw [applyBatches_eq_applyCommit] at hsplit ⊢
    exact hsplit
  have hplace : [[commit0], [commit1]].flatten[1]? = some commit1 := rfl
  exact (commit_histories_agree library hsplit hwhole ledger (by decide +kernel) hplace rfl).2

end BitvmNode.CommitChain
