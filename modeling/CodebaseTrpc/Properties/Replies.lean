import CodebaseTrpc.Properties.Procedures

/-! What a request is answered, whatever calls run beside it and whatever statements are lost. -/
namespace CodebaseTrpc
variable {P : Packages}

/-- The worlds that an interleaving of the calls goes through. -/
def Passed (Admit : Promise Reply → Prop) (Lost : ℕ → Prop) (x y : Async.Pool World Err Reply)
    (w : World) : Prop :=
  ∃ calls, Async.Pool.MaySteps Admit Ticks Lost x (calls, w) ∧
    Async.Pool.MaySteps Admit Ticks Lost (calls, w) y

section Pool
variable {Admit : Promise Reply → Prop} {Lost : ℕ → Prop} {request : Request}
  {x y : Async.Pool World Err Reply} {i : ℕ} {c : Async.Call World Err Reply}

theorem Passed.start (h : Async.Pool.MaySteps Admit Ticks Lost x y) : Passed Admit Lost x y x.2 :=
  ⟨x.1, .refl, h⟩

end Pool

namespace Sample

/-- Ann's page asks for her profile while another one changes her name. -/
def profileAsked : Request := .getUserById (some accessToken.text)
def newName : Request := .updateUserById (some accessToken.text) { fullName := some "Ann Li" }

def asking : Async.Pool World Err Reply :=
  ([⟨handle packages profileAsked, []⟩, ⟨handle packages newName, []⟩], signedIn)

def asked : Async.Pool World Err Reply :=
  Async.Pool.runSchedule [0, 1, 0, 1, 1, 0, 0] asking

def shown : UserProfile := { removeUserSensitive (buyer signedIn) with fullName := "Ann Li" }

end Sample

section Pool
variable {Admit : Promise Reply → Prop} {Lost : ℕ → Prop} {request : Request}
  {x y : Async.Pool World Err Reply} {i : ℕ} {c : Async.Call World Err Reply}

end Pool

namespace Sample

/-- Ann follows her verification link, and buys before the answer is there. -/
def checkout : Request :=
  .createCheckoutSession (some accessToken.text) ⟨"price_1", "https://ok", "https://back"⟩
end Sample

end CodebaseTrpc
