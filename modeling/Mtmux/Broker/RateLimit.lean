import Mtmux.Base.OrderedMap

/-! Per-key sliding-window rate limiting, as the broker's budgets use it. -/
namespace Mtmux.Broker

/-- Keys untouched for this long are dropped, bounding memory. -/
def idleEvictMs : Nat := 10 * 60 * 1000
def maxKeys : Nat := 50000

structure RateLimiter where
  limit : Nat
  windowMs : Nat
  hits : OrderedMap String (List Nat)
  lastSweep : Nat

namespace RateLimiter

def createRateLimiter (limit windowMs : Nat) : RateLimiter :=
  ⟨limit, windowMs, OrderedMap.empty, 0⟩

/-- A limiter over the default window of one minute. -/
def create (limit : Nat) : RateLimiter :=
  ⟨limit, 60000, OrderedMap.empty, 0⟩

def prune (l : RateLimiter) (key : String) (now : Nat) : RateLimiter × List Nat :=
  let times := ((l.hits.get key).getD []).filter fun t => now < t + l.windowMs
  if times = [] then ({ l with hits := l.hits.delete key }, times)
  else ({ l with hits := l.hits.set key times }, times)

def sweep (l : RateLimiter) (now : Nat) : RateLimiter :=
  if now - l.lastSweep < idleEvictMs ∧ l.hits.size < maxKeys then l
  else
    { l with
      lastSweep := now
      hits := l.hits.filter fun _ times => !times.all fun t => t + l.windowMs ≤ now }

/-- Consume one unit. False means the caller is over the limit. -/
def take (l : RateLimiter) (key : String) (now : Nat) : RateLimiter × Bool :=
  let (l, times) := (l.sweep now).prune key now
  if l.limit ≤ times.length then (l, false)
  else ({ l with hits := l.hits.set key (times ++ [now]) }, true)

/-- Milliseconds until the oldest hit in the window expires. -/
def retryAfterMs (l : RateLimiter) (key : String) (now : Nat) : RateLimiter × Nat :=
  let (l, times) := l.prune key now
  match times with
  | [] => (l, 0)
  | oldest :: _ => if times.length < l.limit then (l, 0) else (l, oldest + l.windowMs - now)

end RateLimiter
end Mtmux.Broker
