import Scriptlet.Number.Binary64
import Scriptlet.Store.Recent

/-!
# Gate: how many requests a client may make

Every client has a bucket of tokens, and a request takes one. Buckets of clients that were not seen
for long are forgotten. The time that passes between requests is not looked at, so buckets are not
filled again.

Requests may be at the gate at the same time. Each finds the bucket of its client, provides one if
there is none, and takes a token; others may come between these steps, but not into one of them.
-/

namespace Scriptlet

/-- The buckets that clients take their tokens from. A client is known by the number of its bucket,
so that a request which has found a bucket keeps it, even if the client is forgotten meanwhile. -/
structure Buckets where
  /-- How many tokens a new bucket holds. -/
  burst : Nat
  /-- The clients with their buckets. -/
  known : Recent Bytes Nat
  /-- How many tokens are left in each bucket. -/
  tokens : List Nat := []
deriving Repr

namespace Buckets

/-- The bucket of a client that is known, which becomes the latest. -/
def find? (b : Buckets) (client : Bytes) : Option Nat × Buckets :=
  let (bucket, known) := b.known.get? client
  (bucket, { b with known })

/-- The bucket of a client that was not found: a new one, unless another request of the client has
provided one since. -/
def provide (b : Buckets) (client : Bytes) : Nat × Buckets :=
  match b.known.peek? client with
  | some bucket => (bucket, b)
  | none =>
    let bucket := b.tokens.length
    (bucket, { b with known := b.known.add client bucket, tokens := b.tokens ++ [b.burst] })

/-- Takes a token from a bucket, if one is left. -/
def take (b : Buckets) (bucket : Nat) : Bool × Buckets :=
  match b.tokens[bucket]? with
  | some (n + 1) => (true, { b with tokens := b.tokens.set bucket n })
  | some 0 | none => (false, b)

/-- All the steps of a request in a row. -/
def letIn (b : Buckets) (client : Bytes) : Bool × Buckets :=
  match b.find? client with
  | (some bucket, b) => b.take bucket
  | (none, b) =>
    let (bucket, b) := b.provide client
    b.take bucket

end Buckets

/-- Decides which clients are let in. -/
inductive Gate where
  /-- Everyone is. -/
  | wide
  /-- Each client is as long as its bucket holds a token. -/
  | buckets (b : Buckets)
  /-- Everyone is but those refused; the clients asked about are kept, the latest first. -/
  | refusing (refused asked : List Bytes)

namespace Gate

/-- How many clients are remembered. -/
def maxClients : Nat := 1024

/-- The largest finite number, which as a rate means no limit. -/
def endless : Binary64 := .finite false (Binary64.mantissaBound - 1) Binary64.maxExponent

/-- A gate for a rate of requests per second. A rate that is not positive opens the gate, and so
does one without bound; a bucket holds at least one token. -/
def ofRate (rate : Binary64) (burst : Int) : Gate :=
  let closed : Gate := .buckets
    { burst := if burst ≤ 0 then 1 else burst.toNat, known := { capacity := maxClients } }
  match rate with
  | .finite negative m _ => if negative || m = 0 || rate = endless then .wide else closed
  | _ => .wide

/-- Lets a client in or not. -/
def letIn (g : Gate) (client : Bytes) : Bool × Gate :=
  match g with
  | .wide => (true, .wide)
  | .refusing refused asked => (!refused.contains client, .refusing refused (client :: asked))
  | .buckets b =>
    let (granted, b) := b.letIn client
    (granted, .buckets b)

/-- The clients that were asked about, in order, where they are kept. -/
def askedAbout : Gate → List Bytes
  | .refusing _ asked => asked.reverse
  | _ => []

/-- The host of an address with a port, with the brackets of a literal address dropped. -/
def host? (address : Bytes) : Option Bytes :=
  let colon := byte ':'
  if !address.contains colon then none
  else
    let last := (address.reverse.takeWhile (· != colon)).length
    let i := address.length - last - 1
    match address with
    | 91 :: rest =>
      let inner := rest.takeWhile (· != byte ']')
      let after := rest.drop (inner.length + 1)
      if inner.length = rest.length then none
      else if inner.length + 2 ≠ i then none
      else if inner.contains (byte '[') || after.contains (byte '[') || after.contains (byte ']')
      then none
      else some inner
    | _ =>
      let host := address.take i
      if host.contains colon || address.contains (byte '[') || address.contains (byte ']') then none
      else some host

/-- What a client is known by: the host of its address, or all of it if it has no port. -/
def clientKey (address : Bytes) : Bytes := (host? address).getD address

end Gate
end Scriptlet
