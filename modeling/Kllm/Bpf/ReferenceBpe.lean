import Mathlib
import Kllm.Lib.PairMerge
import Kllm.Bpf.Tokenizer
import Kllm.Bpf.MergePass
import Kllm.Bpf.MergeLoop
import Kllm.Bpf.TokenizeResult

set_option autoImplicit false

namespace Kllm.Bpf

open Chardev PairMerge

section
variable (byteToToken : UInt8 → UInt32)

end

def window (buf : Nat → UInt32) (i tokLen : Nat) : List UInt32 := (List.range' i (tokLen - i)).map buf

end Kllm.Bpf
