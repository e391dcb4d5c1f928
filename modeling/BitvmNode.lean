import BitvmNode.HeaderChain.Batches
import BitvmNode.LightClient.Gateway
import BitvmNode.LightClient.Challenges
import BitvmNode.StateChainHost.Liveness
import BitvmNode.Engine.Retention
import BitvmNode.Engine.Wakeups
import BitvmNode.EventWatch.Rewards
import BitvmNode.EventWatch.Coverage
import BitvmNode.Instance.Scan
import BitvmNode.Instance.Progress
import BitvmNode.Pegout.Punishment
import BitvmNode.Setup.Selections
import BitvmNode.Admission.CommitteeReserve
import BitvmNode.Admission.OperatorLookups
import BitvmNode.CommitChain.Collection
import BitvmNode.EventWatch.SequencerSets
import BitvmNode.Graphs.Endorsements
import BitvmNode.Graphs.Kickoffs
import BitvmNode.HeaderChain.CircuitTransaction
import BitvmNode.HeaderChain.SpvCompleteness
import BitvmNode.HeaderChain.Targets
import BitvmNode.LightClient.Commitments
import BitvmNode.LightClient.InclusionBitmap
import BitvmNode.LightClient.PublishedRoots
import BitvmNode.Pegout.CommittedInputs
import BitvmNode.Pegout.Payouts
import BitvmNode.Pegout.WitnessForms
import BitvmNode.ProofBuilder.CommitProofs
import BitvmNode.ProofBuilder.Replays
import BitvmNode.Rpc.ReplaySafety
import BitvmNode.Setup.ChallengeMaterial
import BitvmNode.StateChain.TxRoot
import BitvmNode.Swap.ClaimSearch
import BitvmNode.Wallet.Funding
