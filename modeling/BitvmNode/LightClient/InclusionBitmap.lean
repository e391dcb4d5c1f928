import BitvmNode.LightClient.Watchtower
import BitvmNode.Pegout.OperatorPubin
import BitvmNode.Reasoning.BitLists

/-!
# The inclusion bitmap in the node and in the circuit

The operator's node writes the inclusion vector byte by byte, the circuit reads it as a 256-bit
number and checks the indices of the supplied challenges against its bits.
-/

namespace BitvmNode.LightClient

open Reasoning Bitcoin Pegout

variable {bits : List Bool}

variable {i : Nat}

end BitvmNode.LightClient
