import Mathlib
import Kllm.Lib.Warp
import Kllm.Lib.OnlineSoftmax
import Kllm.Gpu.PagedAttention
import Kllm.Gpu.AttentionRefines

set_option autoImplicit false

namespace Kllm.Gpu

open Warp OnlineSoftmax

section
variable {F : Type} [Field F] [LinearOrder F]

end

end Kllm.Gpu
