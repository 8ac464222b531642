import AuctionWorker.Text

/-!
# The model classes

The records the three implementations share (`model/`), field by field. They
agree on all of them but the advertiser, whose category blocking type each
language decodes into a type of its own: `Advertiser χ τ` leaves it open.

Identifiers are never computed with, so they are natural numbers. A price is
the exact value of a `decimal(15, 4)` column, counted in ten-thousandths: such
decimals have at most 15 significant digits, so that converting them to doubles
keeps their order and keeps different prices different.
-/

namespace AuctionWorker

variable {χ : Type}

/-- An ad: its price and its text. -/
structure Ads (χ : Type) where
  adsId : ℕ
  advertiserId : ℕ
  price : ℕ
  adsTxt : List χ
  sizeId : ℕ
deriving Repr, DecidableEq

structure AdSize where
  sizeId : ℕ
  adsWidth : ℕ
  adsHeight : ℕ
deriving Repr, DecidableEq

structure AdsFeature where
  adsId : ℕ
  feature : ℤ
deriving Repr, DecidableEq

/-- The categories of one advertiser; whether they allow or deny is stored with
the advertiser. -/
structure CategoryBlocking where
  advertiserId : ℕ
  categoryIds : List ℕ
deriving Repr, DecidableEq

/-- An advertiser. `τ` is the language's type of the allow/deny flag. -/
structure Advertiser (χ τ : Type) where
  advertiserId : ℕ
  advertiserName : List χ
  categoryBlockingType : τ
  domain : List χ
deriving Repr, DecidableEq

/-- What the server keeps of an auction request. -/
@[ext]
structure Request (χ : Type) where
  auctionId : List χ
  categoryIds : List ℕ
  feature : ℤ
  zoneWidth : ℕ
  zoneHeight : ℕ
  blockDomains : List (List χ)
deriving Repr, DecidableEq

structure Response (χ : Type) where
  auctionId : List χ
  ads : List χ
  price : ℕ
deriving Repr, DecidableEq

/-- The response for a winning ad, as all three implementations build it. -/
def respond (request : Request χ) (winner : Ads χ) : Response χ where
  auctionId := request.auctionId
  ads := winner.adsTxt
  price := winner.price

end AuctionWorker
