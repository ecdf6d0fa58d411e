import Credential.Time.Instant

/-!
# The validity window

The three time checks that tokens and assertions share. A clock skew only ever widens the window,
and where adding it leads out of the calendar the window is open on that side.
-/

namespace Credential.Window

/-- Expired from `expiration + skew` on. -/
def isExpired (expiration now : Instant) (skew : Duration) : Bool :=
  match expiration.add? skew with
  | some limit => limit ≤ now
  | none => false

/-- Not yet valid while `now + skew` lies before the start. -/
def isNotYetValid (notBefore now : Instant) (skew : Duration) : Bool :=
  match now.add? skew with
  | some shifted => shifted < notBefore
  | none => false

/-- Issued in the future if the issue lies after `now + skew`. -/
def isIssuedInFuture (issuedAt now : Instant) (skew : Duration) : Bool :=
  match now.add? skew with
  | some shifted => shifted < issuedAt
  | none => false

/-- The greatest skew that a configuration can ask for, a hundred years of 365 days. -/
def maxSkewSeconds : Nat := 100 * 365 * 24 * 60 * 60

/-- A configured number of seconds as a skew. -/
def skewOfSeconds (n : Nat) : Duration := Duration.ofSeconds (min n maxSkewSeconds : Nat)

theorem skewOfSeconds_nonneg (n : Nat) : 0 ≤ skewOfSeconds n :=
  Int.mul_nonneg (Int.natCast_nonneg _) (by decide)

/-- The skew of a verifier that is not told one. -/
def defaultSkewSeconds : Nat := 60

/-- A negative skew counts as none. -/
def clampSkew (d : Duration) : Duration := max d 0

theorem clampSkew_nonneg (d : Duration) : 0 ≤ clampSkew d := Int.le_max_right d 0

end Credential.Window
