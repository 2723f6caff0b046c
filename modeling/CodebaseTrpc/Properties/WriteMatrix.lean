import CodebaseTrpc.Invariants.Writers

/-! Which request can write which column of whose row, whatever other requests run beside it. -/
namespace CodebaseTrpc
variable {P : Packages}

namespace Sample

def renewal : Request := .refresh refreshToken.text

end Sample

end CodebaseTrpc
