import AuctionWorker.Documented

/-!
# The evaluation data

`test/create_data.py` with `test/sample_data.py`, and the requests that
`test/calculate_performance.py` builds. Every random draw is a field of a
structure, with what the library promises about it: `random.sample` returns
distinct elements, `random.randint` and `random.choice` stay within their
arguments, `random.shuffle` permutes. A dataset is a function of the draws, for
any number of advertisers and of ads.

The files hold the rows as they are loaded. Their texts consist of letters,
digits and the dot of `.com`, so that neither the separator nor a line break
occurs in a field.
-/

namespace AuctionWorker

namespace CreateData

/-! ## `sample_data.py` -/

def CANDIDATE_ZONE_SIZES : List (ℕ × ℕ) :=
  [(200, 300), (250, 350), (400, 500), (150, 200)]

def ADS_SIZE_IDS : List ℕ :=
  List.range' 1 CANDIDATE_ZONE_SIZES.length

def PROHIBIT_STRINGS : List (List Char) :=
  ["ABC", "BCode", "Code", "ode1", "de12", "e123", "123", "23X", "3XY", "XYZ", "YZW", "ZWe",
    "Web", "WebService", "Service", "viceX", "iceXY", "ceXYZ", "eXYZ4", "XYZ4", "YZ45", "Z456",
    "456", "56D", "6Da", "Data", "DataStream", "Stream", "eamA", "amAB", "mABC", "ABCX", "BCXY",
    "CXYZ", "XYZ7", "YZ78", "Z789", "789", "89F", "9Fi", "Final", "FinalCode", "nalCode",
    "alCodeX", "lCodeXY", "CodeXYZ", "odeXYZ0", "deXYZ00", "eXYZ000", "XYZ0", "XYZ00", "XYZ000",
    "YZ0", "Z00", "000", "00E", "0En", "End", "ndX", "dXY", "Code123", "ServiceXYZ456",
    "StreamABCXYZ7", "FinalCodeXYZ000", "000End", "ABCode123XYZWeb", "DataStreamABCXYZ789Final"].map
    String.toList

/-- `string.ascii_letters + string.digits` -/
def LETTERS_AND_DIGITS : List Char :=
  "abcdefghijklmnopqrstuvwxyzABCDEFGHIJKLMNOPQRSTUVWXYZ0123456789".toList

theorem length_pos_of_mem_prohibit {s : List Char} (h : s ∈ PROHIBIT_STRINGS) : 0 < s.length := by
  have hall : ∀ s ∈ PROHIBIT_STRINGS, 0 < s.length := by decide
  exact hall s h

theorem isAlphanum_of_mem_letters {c : Char} (h : c ∈ LETTERS_AND_DIGITS) : c.isAlphanum := by
  have hall : (LETTERS_AND_DIGITS.all Char.isAlphanum) = true := by decide +kernel
  exact List.all_eq_true.mp hall c h

theorem isAlphanum_of_mem_prohibit {s : List Char} (h : s ∈ PROHIBIT_STRINGS) :
    ∀ c ∈ s, c.isAlphanum := by
  have hall : (PROHIBIT_STRINGS.all fun s => s.all Char.isAlphanum) = true := by decide +kernel
  exact List.all_eq_true.mp (List.all_eq_true.mp hall s h)

/-! ## Draws -/

/-- `random_string(length)` -/
structure RandomString (length : ℕ) where
  text : List Char
  text_length : text.length = length
  text_mem : ∀ c ∈ text, c ∈ LETTERS_AND_DIGITS

/-- The draws of one call of `random_prohibit_string`: the sequence of choices,
the filler of each length, and a shuffle. -/
structure ProhibitDraw where
  choice : ℕ → List Char
  choice_mem : ∀ i, choice i ∈ PROHIBIT_STRINGS
  filler : (k : ℕ) → RandomString k
  shuffle : List (List Char) → List (List Char)
  shuffle_perm : ∀ l, (shuffle l).Perm l

/-- The draws of one ad. The price is `round(random.uniform(0.01, 100.0), 4)`. -/
structure AdsDraw where
  price : ℕ
  price_range : 100 ≤ price ∧ price ≤ 1000000
  adsTxt : RandomString 64
  sizeId : ℕ
  sizeId_mem : sizeId ∈ ADS_SIZE_IDS
  feature : ℤ
  feature_range : -100000 ≤ feature ∧ feature ≤ 100000

/-- The draws of one advertiser; the number of its ads is drawn with them. -/
structure AdvertiserDraw where
  advertiserName : RandomString 16
  categoryBlockingType : Fin 256
  categoryBlockingType_range : categoryBlockingType = 0 ∨ categoryBlockingType = 1
  advertiserDomain : ProhibitDraw
  categoryIds : List ℕ
  categoryIds_nodup : categoryIds.Nodup
  categoryIds_range : ∀ categoryId ∈ categoryIds, 1 ≤ categoryId ∧ categoryId < 21
  categoryIds_length : 1 ≤ categoryIds.length ∧ categoryIds.length ≤ 10
  adses : List AdsDraw

/-! ## `create_data.py` -/

/-- The loop of `random_prohibit_string`: the pieces and what remains of the
length. Every piece shortens what remains, so that the loop ends. -/
def prohibitLoop (draw : ProhibitDraw) (remainingLen i : ℕ) (result : List (List Char)) :
    List (List Char) × ℕ :=
  if 0 < remainingLen then
    if (draw.choice i).length ≤ remainingLen then
      prohibitLoop draw (remainingLen - (draw.choice i).length) (i + 1)
        (result ++ [draw.choice i])
    else (result, remainingLen)
  else (result, remainingLen)
termination_by remainingLen
decreasing_by
  have := length_pos_of_mem_prohibit (draw.choice_mem i)
  omega

def randomProhibitString (draw : ProhibitDraw) (length : ℕ) : List Char :=
  match prohibitLoop draw length 0 [] with
  | (result, remainingLen) =>
      let result := if 0 < remainingLen then result ++ [(draw.filler remainingLen).text] else result
      (draw.shuffle result).flatten

/-- The rows written so far. -/
structure Files where
  advertisers : List (AdvertiserRow Char)
  adses : List (Ads Char)
  categoryBlockings : List CategoryBlockingRow
  adsFeatures : List AdsFeature

def adsSizes : List AdSize :=
  CANDIDATE_ZONE_SIZES.zipIdx.map fun size => ⟨size.2 + 1, size.1.1, size.1.2⟩

/-- The body of the loop over an advertiser's categories. -/
def categoryStep (advertiserId : ℕ) (files : Files) (categoryId : ℕ) : Files :=
  { files with categoryBlockings := files.categoryBlockings ++ [⟨advertiserId, categoryId⟩] }

/-- The body of the loop over an advertiser's ads, counted from 1. -/
def adsStep (advertiserId sumAds : ℕ) (files : Files) (draw : AdsDraw × ℕ) : Files :=
  let adsId := draw.2 + sumAds
  { files with
    adses := files.adses
      ++ [⟨adsId, advertiserId, draw.1.price, draw.1.adsTxt.text, draw.1.sizeId⟩]
    adsFeatures := files.adsFeatures ++ [⟨adsId, draw.1.feature⟩] }

/-- The body of the loop over the advertisers, counted from 1, with `sum_ads`. -/
def advertiserStep (state : Files × ℕ) (draw : AdvertiserDraw × ℕ) : Files × ℕ :=
  let advertiserId := draw.2
  let advertiserDomain := randomProhibitString draw.1.advertiserDomain 32 ++ ".com".toList
  let files := { state.1 with
    advertisers := state.1.advertisers ++ [⟨advertiserId, draw.1.advertiserName.text,
      some draw.1.categoryBlockingType, advertiserDomain⟩] }
  let files := draw.1.categoryIds.foldl (categoryStep advertiserId) files
  let files := (draw.1.adses.zipIdx 1).foldl (adsStep advertiserId state.2) files
  (files, state.2 + draw.1.adses.length)

def createData (draws : List AdvertiserDraw) : Tables Char :=
  let files := ((draws.zipIdx 1).foldl advertiserStep (⟨[], [], [], []⟩, 0)).1
  ⟨files.advertisers, adsSizes, files.adses, files.categoryBlockings, files.adsFeatures⟩

/-! ## `calculate_performance.py` -/

/-- The draws of one request; the number of blocked domains depends on the size of
the evaluation. -/
structure RequestDraw where
  auctionId : RandomString 16
  categoryIds : List ℕ
  categoryIds_nodup : categoryIds.Nodup
  categoryIds_range : ∀ categoryId ∈ categoryIds, 1 ≤ categoryId ∧ categoryId < 21
  zoneFeature : ℤ
  zoneFeature_range : -100000 ≤ zoneFeature ∧ zoneFeature ≤ 100000
  zoneSize : ℕ × ℕ
  zoneSize_mem : zoneSize ∈ CANDIDATE_ZONE_SIZES
  blockDomains : List (List Char)
  blockDomains_mem : ∀ entry ∈ blockDomains, entry ∈ PROHIBIT_STRINGS

def RequestDraw.requestData (draw : RequestDraw) : Request Char where
  auctionId := draw.auctionId.text
  categoryIds := draw.categoryIds
  feature := draw.zoneFeature
  zoneWidth := draw.zoneSize.1
  zoneHeight := draw.zoneSize.2
  blockDomains := draw.blockDomains

end CreateData

end AuctionWorker
