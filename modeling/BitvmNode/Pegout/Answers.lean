import BitvmNode.Pegout.Steps

/-!
# The operator's answers in a challenge

A challenge on connector A is answered by Watchtower-Challenge-Init, and each watchtower's challenge
by an ACK; a verifier punishes a missing ACK with a NACK.
-/

namespace BitvmNode.Pegout

open Reasoning Bitcoin Signing Graphs

structure Wallet where
  signWatchtowerChallengeInit : BitvmGcGraph → Except String (List Transaction)
  buildAck : BitvmGcGraph → Nat → Except String Transaction
  withCpfp : Transaction → Except String (List Transaction)

def validateWatchtowerBranches (g : BitvmGcGraph) : Except String Nat :=
  if g.watchtowerNum = 0 then .error "graph has no watchtower slots"
  else if g.parameters.watchtowerAckHashlocks.length ≠ g.watchtowerNum ∨
      g.watchtowerChallengeTimeouts.length ≠ g.watchtowerNum ∨
      g.operatorChallengeNacks.length ≠ g.watchtowerNum then
    .error (s!"graph watchtower branch lengths differ: watchtowers={g.watchtowerNum}, " ++
      s!"ack_hashlocks={g.parameters.watchtowerAckHashlocks.length}, " ++
      s!"timeouts={g.watchtowerChallengeTimeouts.length}, nacks={g.operatorChallengeNacks.length}")
  else .ok g.watchtowerNum

def timeoutTxid (sha256 : Bytes → Bytes32) (g : BitvmGcGraph) (watchtowerIndex : Nat) :
    Option Bytes32 :=
  g.watchtowerChallengeTimeouts[watchtowerIndex]?.map fun timeout => timeout.tx.computeTxid sha256

section Jobs

variable {sha256 : Bytes → Bytes32} {watched : List Transaction} (topology : OutputTopology)
  (wallet : Wallet) (btc : ChainView sha256 watched) (g : BitvmGcGraph)

def watchtowerChallengeInit (challengeTxid : Bytes32) : StepRun :=
  let wciTxid := g.watchtowerChallengeInit.tx.computeTxid sha256
  match present (presenceOf btc wciTxid) "Watchtower-Challenge-Init" with
  | some step => step
  | none =>
      match btc.lookup challengeTxid with
      | none => .afterBlocks "challenge tx is not available" 1
      | some challengeTx =>
          if challengeTx.input.head?.map TxIn.previousOutput ≠
            some (g.connectorA sha256 topology) then
            .ignore "challenge does not spend connector-A"
          else
            match wallet.signWatchtowerChallengeInit g with
            | .error error => .fail error
            | .ok txs => .broadcastPending txs ("Watchtower-Challenge-Init " ++ displayTxid wciTxid)

def withBranch (watchtowerIndex : Nat) (body : StepRun) : StepRun :=
  match validateWatchtowerBranches g with
  | .error error => .fail error
  | .ok watchtowerNum =>
      if watchtowerIndex ≥ watchtowerNum then
        .fail s!"watchtower index {watchtowerIndex} out of range for {watchtowerNum} slots"
      else body

def challengeAck (watchtowerIndex : Nat) : StepRun :=
  withBranch g watchtowerIndex <|
    match btc.outpointSpentTxin (g.watchtowerConnector sha256 topology watchtowerIndex) with
    | none => .afterBlocks s!"watchtower connector {watchtowerIndex} is not spent" 1
    | some (spentTxid, vin, _) =>
        if vin ≠ 0 then
          .ignore (s!"watchtower connector {watchtowerIndex} spent by " ++ displayTxid spentTxid ++
            s!" at input {vin}")
        else if timeoutTxid sha256 g watchtowerIndex = some spentTxid then
          .ignore s!"watchtower {watchtowerIndex} timed out"
        else
          match settledBy (spendOf btc (g.ackConnector sha256 topology watchtowerIndex))
              s!"ack connector {watchtowerIndex}" with
          | some step => step
          | none =>
              match wallet.buildAck g watchtowerIndex with
              | .error error => .fail error
              | .ok ack => .broadcastPending [ack]
                  ("Operator-Challenge-ACK " ++ displayTxid (ack.computeTxid sha256))

def challengeNack (watchtowerIndex : Nat) : StepRun :=
  withBranch g watchtowerIndex <|
    match settledBy (spendOf btc (g.connectorF sha256 topology)) "connector-F" with
    | some step => step
    | none =>
        match btc.outpointSpentTxid (g.watchtowerConnector sha256 topology watchtowerIndex) with
        | none => .afterBlocks s!"watchtower connector {watchtowerIndex} is not spent" 1
        | some spentTxid =>
            if timeoutTxid sha256 g watchtowerIndex = some spentTxid then
              .ignore s!"watchtower {watchtowerIndex} timed out"
            else
              match settledBy (spendOf btc (g.ackConnector sha256 topology watchtowerIndex))
                  s!"ack connector {watchtowerIndex}" with
              | some step => step
              | none =>
                  match g.operatorChallengeNacks[watchtowerIndex]? with
                  | none => .fail s!"invalid watchtower index {watchtowerIndex}"
                  | some nack =>
                      match wallet.withCpfp nack.tx with
                      | .error error => .fail error
                      | .ok txs => .broadcastPending txs
                          ("Operator-Challenge-NACK " ++ displayTxid (nack.tx.computeTxid sha256))

end Jobs

section Guards

variable {sha256 : Bytes → Bytes32} {watched : List Transaction} {topology : OutputTopology}
  {wallet : Wallet} {btc : ChainView sha256 watched} (g : WiredGraph sha256 topology)

theorem withBranch_eq {watchtowerIndex : Nat} (hlt : watchtowerIndex < g.watchtowerNum)
    (body : StepRun) : withBranch g.toBitvmGcGraph watchtowerIndex body = body := by
  have hvalid : validateWatchtowerBranches g.toBitvmGcGraph = .ok g.watchtowerNum := by
    unfold validateWatchtowerBranches
    have hpos : g.watchtowerNum ≠ 0 := by omega
    have hlengths := And.intro g.ackHashlocks_length
      (And.intro g.watchtowerChallengeTimeouts_length g.operatorChallengeNacks_length)
    rw [if_neg hpos, if_neg (by simp [hlengths])]
  unfold withBranch
  rw [hvalid]
  exact if_neg (by omega)

theorem withBranch_out {watchtowerIndex : Nat} (hge : g.watchtowerNum ≤ watchtowerIndex)
    (body : StepRun) : ∃ error, withBranch g.toBitvmGcGraph watchtowerIndex body = .fail error := by
  unfold withBranch
  split
  case h_1 error _ => exact ⟨error, rfl⟩
  case h_2 watchtowerNum hvalid =>
    have heq : watchtowerNum = g.watchtowerNum := by
      unfold validateWatchtowerBranches at hvalid
      split at hvalid
      · cases hvalid
      · split at hvalid
        · cases hvalid
        · exact (Except.ok.inj hvalid).symm
    rw [heq, if_pos hge]
    exact ⟨_, rfl⟩

/-- A watchtower's challenge that is open to a NACK: connector F and the ACK connector are unspent,
and `tx` on the watchtower connector is not the timeout. -/
structure NackOpen (btc : ChainView sha256 watched) (i : Nat) (tx : Transaction) : Prop where
  index : i < g.watchtowerNum
  connectorF : btc.spentBy (g.connectorF sha256 topology) = none
  challenged : btc.spender (g.watchtowerConnector sha256 topology i) = some tx
  notTimeout : timeoutTxid sha256 g.toBitvmGcGraph i ≠ some (tx.computeTxid sha256)
  unanswered : btc.spentBy (g.ackConnector sha256 topology i) = none

variable {i : Nat}

theorem nackOpen_of_broadcast
    (h : (challengeNack topology wallet btc g.toBitvmGcGraph i).broadcast ≠ []) :
    ∃ tx, NackOpen g btc i tx := by
  by_cases hlt : i < g.watchtowerNum
  · unfold challengeNack at h
    rw [withBranch_eq g hlt] at h
    split at h
    case h_1 step hstep =>
      cases hspend : spendOf btc (g.connectorF sha256 topology) <;> rw [hspend] at hstep <;>
        cases hstep <;> exact absurd rfl h
    case h_2 hconnectorF =>
      split at h
      case h_1 => exact absurd rfl h
      case h_2 spentTxid hspent =>
        split at h
        case isTrue => exact absurd rfl h
        case isFalse htimeout =>
          split at h
          case h_1 step hstep =>
            cases hspend : spendOf btc (g.ackConnector sha256 topology i) <;>
              rw [hspend] at hstep <;> cases hstep <;> exact absurd rfl h
          case h_2 hack =>
            obtain ⟨tx, htx, rfl⟩ := Option.map_eq_some_iff.mp hspent
            rw [settledBy_eq_none_iff, spendOf_eq_unspent_iff] at hconnectorF hack
            exact ⟨tx, hlt, hconnectorF, htx, htimeout, hack⟩
  · obtain ⟨error, herror⟩ := withBranch_out g (Nat.not_lt.mp hlt) _
    unfold challengeNack at h
    rw [herror] at h
    exact absurd rfl h

variable {tx : Transaction}

variable (wallet) in
theorem challengeNack_of_open (hopen : NackOpen g btc i tx) :
    ∃ nack ∈ g.operatorChallengeNacks, g.operatorChallengeNacks[i]? = some nack ∧
      ∀ txs, wallet.withCpfp nack.tx = .ok txs →
        (challengeNack topology wallet btc g.toBitvmGcGraph i).broadcast = txs := by
  have hlength : i < g.operatorChallengeNacks.length :=
    g.operatorChallengeNacks_length ▸ hopen.index
  refine ⟨_, List.getElem_mem hlength, List.getElem?_eq_getElem hlength, fun txs htxs => ?_⟩
  have hconnectorF := (settledBy_eq_none_iff _ "connector-F").mpr
    ((spendOf_eq_unspent_iff btc _).mpr hopen.connectorF)
  have hack := (settledBy_eq_none_iff _ s!"ack connector {i}").mpr
    ((spendOf_eq_unspent_iff btc _).mpr hopen.unanswered)
  have hspent : btc.outpointSpentTxid (g.watchtowerConnector sha256 topology i) =
      some (tx.computeTxid sha256) := Option.map_eq_some_iff.mpr ⟨tx, hopen.challenged, rfl⟩
  unfold challengeNack
  rw [withBranch_eq g hopen.index]
  simp only [hconnectorF, hspent, if_neg hopen.notTimeout, hack,
    List.getElem?_eq_getElem hlength, htxs]
  rfl

theorem idxOf_eq_zero_iff_head? {o : OutPoint} {outpoints : List OutPoint} (h : o ∈ outpoints) :
    outpoints.idxOf o = 0 ↔ outpoints.head? = some o := by
  cases outpoints with
  | nil => cases h
  | cons first rest =>
    by_cases hfirst : first = o
    · simp [hfirst]
    · simp [List.idxOf_cons_ne _ hfirst, hfirst]

/-- In an open branch the operator's job answers if the watchtower connector stands first in the
challenging transaction, and ends otherwise. -/
theorem challengeAck_of_open (hopen : NackOpen g btc i tx) :
    (tx.spends.head? ≠ some (g.watchtowerConnector sha256 topology i) →
      (challengeAck topology wallet btc g.toBitvmGcGraph i).Ended) ∧
    (tx.spends.head? = some (g.watchtowerConnector sha256 topology i) →
      ¬ (challengeAck topology wallet btc g.toBitvmGcGraph i).Ended ∧
      ∀ ack, wallet.buildAck g.toBitvmGcGraph i = .ok ack →
        (challengeAck topology wallet btc g.toBitvmGcGraph i).broadcast = [ack]) := by
  have hack := (settledBy_eq_none_iff _ s!"ack connector {i}").mpr
    ((spendOf_eq_unspent_iff btc _).mpr hopen.unanswered)
  have hfirst : tx.spends.idxOf (g.watchtowerConnector sha256 topology i) = 0 ↔
      tx.spends.head? = some (g.watchtowerConnector sha256 topology i) :=
    idxOf_eq_zero_iff_head? (Ledger.of_spender hopen.challenged).2
  obtain ⟨txin, hspent⟩ := ChainView.exists_outpointSpentTxin btc hopen.challenged
  unfold challengeAck
  rw [withBranch_eq g hopen.index, hspent]
  dsimp only
  constructor
  · intro hhead
    rw [if_pos (fun hzero => hhead (hfirst.mp hzero))]
    exact StepRun.ended_ignore _
  · intro hhead
    rw [if_neg (not_not.mpr (hfirst.mpr hhead)), if_neg hopen.notTimeout, hack]
    cases hbuilt : wallet.buildAck g.toBitvmGcGraph i with
    | error error =>
      refine ⟨StepRun.not_ended_fail _, fun ack hack => ?_⟩
      cases hack
    | ok built =>
      refine ⟨StepRun.not_ended_broadcastPending _ _, fun ack hack => ?_⟩
      cases Except.ok.inj hack
      rfl

/-- The answer to a reported challenge ends, before Watchtower-Challenge-Init is confirmed, exactly
if that transaction is not visible and connector A does not stand first in the challenge. -/
theorem watchtowerChallengeInit_ended_iff (htx : tx ∈ btc.confirmed)
    (hinit : btc.isConfirmed (g.watchtowerChallengeInit.tx.computeTxid sha256) = false) :
    (watchtowerChallengeInit topology wallet btc g.toBitvmGcGraph (tx.computeTxid sha256)).Ended ↔
      btc.isVisible (g.watchtowerChallengeInit.tx.computeTxid sha256) = false ∧
        tx.spends.head? ≠ some (g.connectorA sha256 topology) := by
  obtain ⟨found, hfound, hsame⟩ := Ledger.exists_lookup (Ledger.mem_known_of_confirmed htx)
  change btc.lookup (tx.computeTxid sha256) = some found at hfound
  have hhead : found.input.head?.map TxIn.previousOutput = tx.spends.head? := by
    rw [← List.head?_map]
    exact congrArg List.head? hsame
  dsimp only [watchtowerChallengeInit]
  cases hpresence : presenceOf btc (g.watchtowerChallengeInit.tx.computeTxid sha256) with
  | confirmed =>
    have hconf := (presenceOf_eq_confirmed_iff btc _).mp hpresence
    cases hinit.symm.trans hconf
  | mempool =>
    have hvisible : btc.isVisible (g.watchtowerChallengeInit.tx.computeTxid sha256) ≠ false := by
      intro hinvisible
      rw [(presenceOf_eq_absent_iff btc _).mpr hinvisible] at hpresence
      cases hpresence
    exact iff_of_false (StepRun.not_ended_afterBlocks _ _) (fun h => hvisible h.1)
  | absent =>
    have hinvisible := (presenceOf_eq_absent_iff btc _).mp hpresence
    simp only [present, hfound, hhead, hinvisible, true_and]
    by_cases hfirst : tx.spends.head? = some (g.connectorA sha256 topology)
    · rw [if_neg (not_not.mpr hfirst)]
      refine iff_of_false ?_ (not_not.mpr hfirst)
      cases wallet.signWatchtowerChallengeInit g.toBitvmGcGraph with
      | error error => exact StepRun.not_ended_fail _
      | ok txs => exact StepRun.not_ended_broadcastPending _ _
    · rw [if_pos hfirst]
      exact iff_of_true (StepRun.ended_ignore _) hfirst

end Guards

section Answered

variable {sha256 : Bytes → Bytes32} {watched : List Transaction} {topology : OutputTopology}
  (g : WiredGraph sha256 topology) (btc : ChainView sha256 watched) (goat : GoatView)
  (wallet : Wallet)

/-- The answer to the challenge that the scan reports goes on until it is confirmed. -/
def ChallengeAnswered : Prop :=
  ∀ challenge, btc.confirmedSpender (g.connectorA sha256 topology) = some challenge →
    challenge ≠ g.take1.tx.computeTxid sha256 →
    btc.isConfirmed (g.watchtowerChallengeInit.tx.computeTxid sha256) = false →
    (scanGraphChainState topology btc goat g.toBitvmGcGraph).challengeTxid = some challenge →
    ¬ (watchtowerChallengeInit topology wallet btc g.toBitvmGcGraph challenge).Ended

/-- Where some verifier would broadcast the NACK, the operator broadcasts the ACK. -/
def NacksAnswered : Prop :=
  ∀ (verifier : Wallet) (i : Nat) (nack : PreSigned), g.operatorChallengeNacks[i]? = some nack →
    nack.tx ∈ (challengeNack topology verifier btc g.toBitvmGcGraph i).broadcast →
    ¬ (challengeAck topology wallet btc g.toBitvmGcGraph i).Ended ∧
      ∀ ack, wallet.buildAck g.toBitvmGcGraph i = .ok ack →
        (challengeAck topology wallet btc g.toBitvmGcGraph i).broadcast = [ack]

/-- The reported challenge has connector A first, unless the answer to it is visible. -/
def ChallengeFirst : Prop :=
  ∀ tx ∈ btc.confirmed,
    (scanGraphChainState topology btc goat g.toBitvmGcGraph).challengeTxid =
      some (tx.computeTxid sha256) →
    btc.isVisible (g.watchtowerChallengeInit.tx.computeTxid sha256) = false →
    tx.spends.head? = some (g.connectorA sha256 topology)

/-- A watchtower's challenge that is open to a NACK has its connector first. -/
def WatchtowerFirst : Prop :=
  ∀ i tx, NackOpen g btc i tx → tx.spends.head? = some (g.watchtowerConnector sha256 topology i)

theorem challengeAnswered_iff :
    ChallengeAnswered g btc goat wallet ↔ ChallengeFirst g btc goat := by
  constructor
  · intro hanswered tx htx hreported hinvisible
    obtain ⟨hspent, hne⟩ := challengeTxid_spec hreported
    have hinit : btc.isConfirmed (g.watchtowerChallengeInit.tx.computeTxid sha256) = false := by
      by_contra hconf
      rw [Bool.not_eq_false] at hconf
      rw [Ledger.isVisible_of_isConfirmed hconf] at hinvisible
      cases hinvisible
    by_contra hhead
    exact hanswered _ hspent hne hinit hreported
      ((watchtowerChallengeInit_ended_iff g htx hinit).mpr ⟨hinvisible, hhead⟩)
  · intro hfirst challenge hspent hne hinit hreported hended
    obtain ⟨tx, htx, rfl, -⟩ := Ledger.confirmedSpender_eq_some_iff.mp hspent
    obtain ⟨hinvisible, hhead⟩ := (watchtowerChallengeInit_ended_iff g htx hinit).mp hended
    exact hhead (hfirst tx htx hreported hinvisible)

theorem nacksAnswered_iff : NacksAnswered g btc wallet ↔ WatchtowerFirst g btc := by
  constructor
  · intro hanswered i tx hopen
    by_contra hhead
    -- a verifier that needs no child for its NACK
    let verifier : Wallet := ⟨fun _ => .error "", fun _ _ => .error "", fun nack => .ok [nack]⟩
    obtain ⟨nack, -, hnack, hbroadcast⟩ := challengeNack_of_open verifier g hopen
    have hmem : nack.tx ∈ (challengeNack topology verifier btc g.toBitvmGcGraph i).broadcast := by
      rw [hbroadcast [nack.tx] rfl]
      exact List.mem_singleton_self _
    exact (hanswered verifier i nack hnack hmem).1 ((challengeAck_of_open g hopen).1 hhead)
  · intro hfirst verifier i nack _ hmem
    obtain ⟨tx, hopen⟩ := nackOpen_of_broadcast g (List.ne_nil_of_mem hmem)
    exact (challengeAck_of_open g hopen).2 (hfirst i tx hopen)

/-- The operator gives up no answer exactly if whoever challenges puts the connector first. -/
theorem answers_never_given_up_iff :
    (ChallengeAnswered g btc goat wallet ∧ NacksAnswered g btc wallet) ↔
      (ChallengeFirst g btc goat ∧ WatchtowerFirst g btc) :=
  and_congr (challengeAnswered_iff g btc goat wallet) (nacksAnswered_iff g btc wallet)

end Answered

namespace SecondInput

open Smallest

def challenge : Transaction := (spending [⟨zero32, 7⟩, ⟨txid kickoff, 0⟩] [⟨5000, []⟩]).tx

def watchtowerChallenge : Transaction :=
  (spending [⟨zero32, 8⟩, ⟨txid Smallest.watchtowerChallengeInit, 0⟩] [⟨5000, []⟩]).tx

def named : List Transaction := challenge :: watchtowerChallenge :: graph.transactions

theorem named_distinct : (named.map (Transaction.computeTxid hash)).Nodup :=
  List.nodup_cons.mpr ⟨by decide +kernel, List.nodup_cons.mpr ⟨by decide +kernel, graph.distinct⟩⟩

def challengedView : ChainView hash graph.transactions :=
  Ledger.ofDistinct named [graph.curPrekickoff.tx, graph.kickoff.tx, challenge] [] named_distinct
    (by decide +kernel) (by decide +kernel)

def watchtowerView : ChainView hash graph.transactions :=
  Ledger.ofDistinct named [graph.curPrekickoff.tx, graph.kickoff.tx, challenge,
      graph.watchtowerChallengeInit.tx, watchtowerChallenge] [] named_distinct
    (by decide +kernel) (by decide +kernel)

def goat : GoatView := ⟨fun _ => zero32, fun _ => .none⟩

def wallet : Wallet where
  signWatchtowerChallengeInit g := .ok [g.watchtowerChallengeInit.tx]
  buildAck _ _ := .ok (spending [⟨txid Smallest.watchtowerChallengeInit, 1⟩] []).tx
  withCpfp tx := .ok [tx]

theorem answers_given_up :
    ((scanGraphChainState topology challengedView goat graph.toBitvmGcGraph).challengeTxid =
        some (challenge.computeTxid hash) ∧
      challengedView.isVisible (graph.watchtowerChallengeInit.tx.computeTxid hash) = false ∧
      (Pegout.watchtowerChallengeInit topology wallet challengedView graph.toBitvmGcGraph
        (challenge.computeTxid hash)).Ended) ∧
    ((challengeNack topology wallet watchtowerView graph.toBitvmGcGraph 0).broadcast =
        graph.operatorChallengeNacks.map PreSigned.tx ∧
      (challengeAck topology wallet watchtowerView graph.toBitvmGcGraph 0).Ended) := by
  decide +kernel

end SecondInput

end BitvmNode.Pegout
