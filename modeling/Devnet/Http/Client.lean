import Devnet.Http.Status
import Devnet.Text.Utf8
import Devnet.Url.Printer

set_option autoImplicit false

namespace Devnet

structure Duration where
  seconds : Nat
  nanoseconds : Fin 1000000000
  deriving DecidableEq, Repr

def Duration.ofSeconds (seconds : Nat) : Duration := ⟨seconds, 0⟩

namespace Http

-- What callers look at of the error of a client.
structure Failure where
  isTimeout : Bool
  isConnect : Bool
  text : String
  deriving DecidableEq, Repr

-- A response as a client hands it over: its status, and what comes of reading its bytes. There are none
-- when they are waited for without end.
structure Answer where
  status : Status
  bytes : Option (Except Failure Bytes)

-- The result of getting a URL, which there is none of when it is waited for without end, and the URLs of the
-- requests that were received for it, in order.
structure Exchange where
  result : Option (Except Failure Answer)
  requests : List Url

def Exchange.behind (exchange : Exchange) (url : Url) : Exchange :=
  { exchange with requests := url :: exchange.requests }

-- Where a client is that gets `origin`: so many redirects later it is about to ask for `url`.
structure Hop where
  origin : Url
  followed : Nat
  url : Url
  deriving DecidableEq, Repr

-- The library that sends the requests is not part of the programs: it is any function from where it is, and
-- from how long it may take, to what comes of the rest. `names` are the URLs that it has a form for.
structure Client where
  names : Url → Bool
  pursue : Option Duration → Hop → Exchange

def Client.get (client : Client) (timeout : Option Duration) (url : Url) : Exchange :=
  client.pursue timeout ⟨url, 0, url⟩

def requestText (url : Url) : String := "GET " ++ url.withoutUserinfo.withoutFragment.text

end Http
end Devnet
