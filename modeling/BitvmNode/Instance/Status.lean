import Mathlib.Data.List.Basic

/-!
# Status and deadlines of a peg-in

The status of an instance, the block heights from which signing stops and from which the instance is
abandoned, and the gate that every signing step asks.
-/

namespace BitvmNode.Instance

inductive InstanceBridgeInStatus where
  | userInited
  | committeesAnswered
  | userBroadcastPeginPrepare
  | presigned
  | relayerL1Broadcasted
  | relayerL2Minted
  | timeout
  | userCanceled
  | noEnoughCommitteesAnswered
  | userDiscarded
  deriving DecidableEq

namespace InstanceBridgeInStatus

def display : InstanceBridgeInStatus → String
  | .userInited => "UserInited"
  | .committeesAnswered => "CommitteesAnswered"
  | .userBroadcastPeginPrepare => "UserBroadcastPeginPrepare"
  | .presigned => "Presigned"
  | .relayerL1Broadcasted => "RelayerL1Broadcasted"
  | .relayerL2Minted => "RelayerL2Minted"
  | .timeout => "Timeout"
  | .userCanceled => "UserCanceled"
  | .noEnoughCommitteesAnswered => "NoEnoughCommitteesAnswered"
  | .userDiscarded => "UserDiscarded"

def FAILED : List InstanceBridgeInStatus :=
  [.noEnoughCommitteesAnswered, .userDiscarded, .userCanceled, .timeout]

def isFailed (status : InstanceBridgeInStatus) : Bool := FAILED.contains status

end InstanceBridgeInStatus

structure PeginDeadlines where
  (t0Blocks bufferBlocks keyDeleteBlocks : Int)

namespace PeginDeadlines

def cancelFromHeight (deadlines : PeginDeadlines) (prepareHeight : Int) : Option Int :=
  if prepareHeight > 0 then some (prepareHeight + deadlines.t0Blocks) else none

def abandonHeight (deadlines : PeginDeadlines) (prepareHeight : Int) : Option Int :=
  (deadlines.cancelFromHeight prepareHeight).map (· + deadlines.bufferBlocks)

end PeginDeadlines

inductive SigningGate where
  | open
  | closed (reason : String)

def SigningGate.isOpen : SigningGate → Bool
  | .open => true
  | .closed _ => false

def signingGateFor (status : InstanceBridgeInStatus) (prepareHeight height : Int)
    (deadlines : PeginDeadlines) : SigningGate :=
  if status.isFailed then .closed s!"instance is {status.display}"
  else
    match deadlines.cancelFromHeight prepareHeight with
    | some t0 => if height ≥ t0 then .closed s!"height {height} reached T0 at {t0}" else .open
    | none => .open

def signingGate (stored : Option (InstanceBridgeInStatus × Int)) (height : Int)
    (deadlines : PeginDeadlines) : SigningGate :=
  match stored with
  | none => .closed "instance not found"
  | some (status, btcHeight) =>
      if status.isFailed then .closed s!"instance is {status.display}"
      else if btcHeight ≤ 0 then .open
      else signingGateFor status btcHeight height deadlines

end BitvmNode.Instance
