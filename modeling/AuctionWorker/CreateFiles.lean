import AuctionWorker.Dataset
import AuctionWorker.Delimited
import AuctionWorker.JsonText
import AuctionWorker.ResponseSender

/-!
# The texts of the generator

What the loops of `test/create_data.py` write into the five files, template by
template. `csv` are the texts of any tables, and the generator writes those of the
tables that it generates (`createFiles_eq_csv`).
-/

namespace AuctionWorker

open Delimited

/-! ## The texts of tables -/

/-- The files under `/var/lib/mysql-files`. -/
structure CsvFiles where
  advertisers : List Char
  adses : List Char
  categoryBlockings : List Char
  adsFeatures : List Char
  adsSizes : List Char
deriving Repr, DecidableEq

/-- NULL has a spelling of its own. -/
def typeField : Option (Fin 256) → List Char
  | none => ['\\', 'N']
  | some type => Nat.toDigits 10 type

def advertiserFields (row : AdvertiserRow Char) : List (List Char) :=
  [Nat.toDigits 10 row.advertiserId, row.advertiserName, typeField row.categoryBlockingType,
    row.domain]

def adSizeFields (row : AdSize) : List (List Char) :=
  [Nat.toDigits 10 row.sizeId, Nat.toDigits 10 row.adsWidth, Nat.toDigits 10 row.adsHeight]

/-- A price as Python prints the double nearest to it. -/
def adsFields (row : Ads Char) : List (List Char) :=
  [Nat.toDigits 10 row.adsId, Nat.toDigits 10 row.advertiserId, Py.double row.price, row.adsTxt,
    Nat.toDigits 10 row.sizeId]

def categoryFields (row : CategoryBlockingRow) : List (List Char) :=
  [Nat.toDigits 10 row.advertiserId, Nat.toDigits 10 row.categoryId]

def featureFields (row : AdsFeature) : List (List Char) :=
  [Nat.toDigits 10 row.adsId, JsonText.intText row.feature]

def csv (tables : Tables Char) : CsvFiles where
  advertisers := write ',' '\n' (tables.advertisers.map advertiserFields)
  adses := write ',' '\n' (tables.adses.map adsFields)
  categoryBlockings := write ',' '\n' (tables.categoryBlockings.map categoryFields)
  adsFeatures := write ',' '\n' (tables.adsFeatures.map featureFields)
  adsSizes := write ',' '\n' (tables.adsSizes.map adSizeFields)

namespace CreateData

/-! ## Templates -/

def ADVERTISER_TEMPLATE (advertiserId : ℕ) (advertiserName : List Char)
    (categoryBlockingType : ℕ) (advertiserDomain : List Char) : List Char :=
  line ',' '\n' [Nat.toDigits 10 advertiserId, advertiserName,
    Nat.toDigits 10 categoryBlockingType, advertiserDomain]

def ADSES_TEMPLATE (adsId advertiserId price : ℕ) (adsTxt : List Char) (sizeId : ℕ) : List Char :=
  line ',' '\n' [Nat.toDigits 10 adsId, Nat.toDigits 10 advertiserId, Py.double price, adsTxt,
    Nat.toDigits 10 sizeId]

def CATEGORY_BLOCKINGS_TEMPLATE (advertiserId categoryId : ℕ) : List Char :=
  line ',' '\n' [Nat.toDigits 10 advertiserId, Nat.toDigits 10 categoryId]

def ADS_FEATURES_TEMPLATE (adsId : ℕ) (feature : ℤ) : List Char :=
  line ',' '\n' [Nat.toDigits 10 adsId, JsonText.intText feature]

def ADS_SIZE_TEMPLATE (sizeId adsWidth adsHeight : ℕ) : List Char :=
  line ',' '\n' [Nat.toDigits 10 sizeId, Nat.toDigits 10 adsWidth, Nat.toDigits 10 adsHeight]

/-! ## The loops -/

/-- The loop over `CANDIDATE_ZONE_SIZES`. -/
def writeSize (files : CsvFiles) (size : (ℕ × ℕ) × ℕ) : CsvFiles :=
  { files with
    adsSizes := files.adsSizes ++ ADS_SIZE_TEMPLATE (size.2 + 1) size.1.1 size.1.2 }

def writeCategory (advertiserId : ℕ) (files : CsvFiles) (categoryId : ℕ) : CsvFiles :=
  { files with
    categoryBlockings := files.categoryBlockings
      ++ CATEGORY_BLOCKINGS_TEMPLATE advertiserId categoryId }

def writeAds (advertiserId sumAds : ℕ) (files : CsvFiles) (draw : AdsDraw × ℕ) : CsvFiles :=
  let adsId := draw.2 + sumAds
  { files with
    adses := files.adses
      ++ ADSES_TEMPLATE adsId advertiserId draw.1.price draw.1.adsTxt.text draw.1.sizeId
    adsFeatures := files.adsFeatures ++ ADS_FEATURES_TEMPLATE adsId draw.1.feature }

def writeAdvertiser (state : CsvFiles × ℕ) (draw : AdvertiserDraw × ℕ) : CsvFiles × ℕ :=
  let advertiserId := draw.2
  let advertiserDomain := randomProhibitString draw.1.advertiserDomain 32 ++ ".com".toList
  let files := { state.1 with
    advertisers := state.1.advertisers ++ ADVERTISER_TEMPLATE advertiserId
      draw.1.advertiserName.text draw.1.categoryBlockingType advertiserDomain }
  let files := draw.1.categoryIds.foldl (writeCategory advertiserId) files
  let files := (draw.1.adses.zipIdx 1).foldl (writeAds advertiserId state.2) files
  (files, state.2 + draw.1.adses.length)

def createFiles (draws : List AdvertiserDraw) : CsvFiles :=
  let files := CANDIDATE_ZONE_SIZES.zipIdx.foldl writeSize ⟨[], [], [], [], []⟩
  ((draws.zipIdx 1).foldl writeAdvertiser (files, 0)).1

/-! ## Rows and their texts -/

/-- The texts of the rows written so far, after those of the sizes. -/
def Files.csv (files : Files) : CsvFiles where
  advertisers := write ',' '\n' (files.advertisers.map advertiserFields)
  adses := write ',' '\n' (files.adses.map adsFields)
  categoryBlockings := write ',' '\n' (files.categoryBlockings.map categoryFields)
  adsFeatures := write ',' '\n' (files.adsFeatures.map featureFields)
  adsSizes := write ',' '\n' (adsSizes.map adSizeFields)

theorem write_concat {ρ : Type} (fields : ρ → List (List Char)) (rows : List ρ) (row : ρ) :
    write ',' '\n' ((rows ++ [row]).map fields)
      = write ',' '\n' (rows.map fields) ++ line ',' '\n' (fields row) := by
  rw [List.map_append, List.map_singleton, write, List.flatMap_append, List.flatMap_singleton]
  rfl

theorem writeCategory_csv (advertiserId : ℕ) (files : Files) (categoryId : ℕ) :
    writeCategory advertiserId files.csv categoryId
      = (categoryStep advertiserId files categoryId).csv := by
  simp only [Files.csv, categoryStep, write_concat]
  rfl

theorem writeAds_csv (advertiserId sumAds : ℕ) (files : Files) (draw : AdsDraw × ℕ) :
    writeAds advertiserId sumAds files.csv draw = (adsStep advertiserId sumAds files draw).csv := by
  simp only [Files.csv, adsStep, write_concat]
  rfl

/-- One advertiser writes the texts of its rows. -/
theorem writeAdvertiser_csv (state : Files × ℕ) (draw : AdvertiserDraw × ℕ) :
    writeAdvertiser (state.1.csv, state.2) draw
      = ((advertiserStep state draw).1.csv, (advertiserStep state draw).2) := by
  obtain ⟨files, sumAds⟩ := state
  have hfirst : ∀ row : AdvertiserRow Char,
      { files.csv with
        advertisers := files.csv.advertisers ++ line ',' '\n' (advertiserFields row) }
        = ({ files with advertisers := files.advertisers ++ [row] } : Files).csv := by
    intro row
    simp only [Files.csv, write_concat]
  rw [writeAdvertiser, advertiserStep]
  dsimp only
  rw [← List.foldl_hom Files.csv fun files d => writeAds_csv draw.2 sumAds files d,
    ← List.foldl_hom Files.csv fun files d => writeCategory_csv draw.2 files d, ← hfirst]
  rfl

theorem writeSize_csv :
    CANDIDATE_ZONE_SIZES.zipIdx.foldl writeSize ⟨[], [], [], [], []⟩
      = Files.csv ⟨[], [], [], []⟩ := by
  decide

/-- **The files of the generator** are the texts of its tables. -/
theorem createFiles_eq_csv (draws : List AdvertiserDraw) :
    createFiles draws = csv (createData draws) := by
  have hrun : ∀ (draws : List (AdvertiserDraw × ℕ)) (state : Files × ℕ),
      draws.foldl writeAdvertiser (state.1.csv, state.2)
        = ((draws.foldl advertiserStep state).1.csv, (draws.foldl advertiserStep state).2) :=
    fun _ _ => List.foldl_hom (fun state : Files × ℕ => (state.1.csv, state.2)) writeAdvertiser_csv
  rw [createFiles, writeSize_csv]
  exact congrArg Prod.fst (hrun (draws.zipIdx 1) (⟨[], [], [], []⟩, 0))

end CreateData

end AuctionWorker
