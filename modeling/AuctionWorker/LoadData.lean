import AuctionWorker.CreateFiles
import AuctionWorker.DatasetAccepted

/-!
# Loading the files

`test/setup_db.sh` creates the tables of `sql/schema.sql` and loads the five files
with `LOAD DATA INFILE … FIELDS TERMINATED BY ','`, table by table. A statement loads
all rows of its file, or fails and changes nothing: a value that its column does not
hold, a key that is there already, or a row that is referred to and is not there. The
script drops the errors.

- A `Database` is loaded into: whatever the files hold, no constraint is broken.
- The texts of a database are loaded in some order of the tables without a loss exactly
  if every table comes after those that its rows refer to (`load_eq_iff`).
- The order of the script is such an order, so that the files of the generator are
  loaded as they were generated (`setupDb_createFiles`).

The columns read the notations that the generator uses: digits, a minus sign, a decimal
point, `\N` for NULL. Other spellings that MySQL accepts, escapes and the number 0 in an
`AUTO_INCREMENT` column are not modelled, and fail here.
-/

namespace AuctionWorker

open Delimited

/-! ## Columns -/

namespace LoadData

/-- An unsigned integer below `bound`. -/
def unsigned? (bound : ℕ) (text : List Char) : Option ℕ :=
  if text ≠ [] ∧ text.all Char.isDigit ∧ Nat.ofDigitChars 10 text 0 < bound then
    some (Nat.ofDigitChars 10 text 0)
  else none

/-- `int(10) unsigned AUTO_INCREMENT` -/
def autoIncrement? (text : List Char) : Option ℕ :=
  (unsigned? (2 ^ 32) text).filter (0 < ·)

/-- `int(10)` -/
def int? : List Char → Option ℤ
  | [] => none
  | c :: rest =>
      if c = '-' then (unsigned? (2 ^ 31 + 1) rest).map fun n : ℕ => -(n : ℤ)
      else (unsigned? (2 ^ 31) (c :: rest)).map fun n : ℕ => (n : ℤ)

/-- `tinyint(1) unsigned NULL` -/
def tinyint? (text : List Char) : Option (Option (Fin 256)) :=
  if text = ['\\', 'N'] then some none
  else (unsigned? 256 text).bind fun n => if h : n < 256 then some (some ⟨n, h⟩) else none

/-- `varchar(255)` -/
def varchar? (text : List Char) : Option (List Char) :=
  if text.length ≤ 255 ∧ '\\' ∉ text then some text else none

/-- `decimal(15, 4) unsigned`, in ten-thousandths -/
def decimal? (text : List Char) : Option ℕ := do
  let whole ← unsigned? (10 ^ 11) (text.takeWhile Char.isDigit)
  match text.dropWhile Char.isDigit with
  | [] => pure (whole * 10 ^ 4)
  | c :: fraction =>
      if c = '.' ∧ fraction.length ≤ 4 then
        let part ← unsigned? (10 ^ 4) fraction
        pure (whole * 10 ^ 4 + part * 10 ^ (4 - fraction.length))
      else none

/-! ## Rows -/

def advertiser? : List (List Char) → Option (AdvertiserRow Char)
  | [advertiserId, advertiserName, categoryBlockingType, domain] => do
      pure ⟨← autoIncrement? advertiserId, ← varchar? advertiserName,
        ← tinyint? categoryBlockingType, ← varchar? domain⟩
  | _ => none

def adSize? : List (List Char) → Option AdSize
  | [sizeId, adsWidth, adsHeight] => do
      pure ⟨← unsigned? (2 ^ 32) sizeId, ← unsigned? (2 ^ 32) adsWidth,
        ← unsigned? (2 ^ 32) adsHeight⟩
  | _ => none

def ads? : List (List Char) → Option (Ads Char)
  | [adsId, advertiserId, price, adsTxt, sizeId] => do
      pure ⟨← autoIncrement? adsId, ← unsigned? (2 ^ 32) advertiserId, ← decimal? price,
        ← varchar? adsTxt, ← unsigned? (2 ^ 32) sizeId⟩
  | _ => none

def category? : List (List Char) → Option CategoryBlockingRow
  | [advertiserId, categoryId] => do
      pure ⟨← unsigned? (2 ^ 32) advertiserId, ← unsigned? (2 ^ 32) categoryId⟩
  | _ => none

def feature? : List (List Char) → Option AdsFeature
  | [adsId, feature] => do pure ⟨← unsigned? (2 ^ 32) adsId, ← int? feature⟩
  | _ => none

/-! ### The texts of values are read back -/

theorem unsigned?_toDigits {bound n : ℕ} (h : n < bound) :
    unsigned? bound (Nat.toDigits 10 n) = some n := by
  have hdigits : (Nat.toDigits 10 n).all Char.isDigit = true :=
    List.all_eq_true.mpr fun _ hc => JsonText.isDigit_of_mem_toDigits hc
  rw [unsigned?, Nat.ofDigitChars_ten_toDigits, if_pos ⟨Nat.toDigits_ne_nil, hdigits, h⟩]

theorem autoIncrement?_toDigits {n : ℕ} (hpos : 0 < n) (h : n < 2 ^ 32) :
    autoIncrement? (Nat.toDigits 10 n) = some n := by
  rw [autoIncrement?, unsigned?_toDigits h]
  exact if_pos (decide_eq_true hpos)

theorem head_toDigits_ne {n : ℕ} {c : Char} (h : (Nat.toDigits 10 n).head? = some c) :
    c.isDigit :=
  JsonText.isDigit_of_mem_toDigits (List.mem_of_mem_head? h)

theorem int?_intText {n : ℤ} (h : -2 ^ 31 ≤ n ∧ n < 2 ^ 31) :
    int? (JsonText.intText n) = some n := by
  rw [JsonText.intText]
  split
  · rw [int?, if_pos rfl, unsigned?_toDigits (by omega)]
    simp only [Option.map_some, Option.some.injEq]
    omega
  · cases hdigits : Nat.toDigits 10 n.natAbs with
    | nil => exact absurd hdigits Nat.toDigits_ne_nil
    | cons c rest =>
        have hc : c ≠ '-' := by
          rintro rfl
          exact absurd (head_toDigits_ne (congrArg List.head? hdigits)) (by decide)
        rw [int?, if_neg hc, ← hdigits, unsigned?_toDigits (by omega)]
        simp only [Option.map_some, Option.some.injEq]
        omega

theorem tinyint?_typeField (type : Option (Fin 256)) : tinyint? (typeField type) = some type := by
  cases type with
  | none => rfl
  | some type =>
      have hnull : Nat.toDigits 10 type ≠ ['\\', 'N'] := by
        intro h
        have hdigit := head_toDigits_ne (congrArg List.head? h)
        exact absurd hdigit (by decide)
      rw [typeField, tinyint?, if_neg hnull, unsigned?_toDigits type.isLt, Option.bind_some,
        dif_pos type.isLt]

/-- The digits after the point of a price. -/
theorem fractionDigits (price : ℕ) : ∃ digits : List Char,
    Float64.positional ['.', '0'] price 4 = Nat.toDigits 10 (price / 10 ^ 4) ++ '.' :: digits
      ∧ digits ≠ [] ∧ digits.length ≤ 4 ∧ (∀ c ∈ digits, c.isDigit)
      ∧ Nat.ofDigitChars 10 digits 0 * 10 ^ (4 - digits.length) = price % 10 ^ 4 := by
  by_cases hnil : Float64.fraction price 4 = []
  · have hzero : ∀ c ∈ ['0'], c.isDigit := List.forall_mem_singleton.mpr rfl
    refine ⟨['0'], ?_, List.cons_ne_nil _ _, Nat.one_le_ofNat, hzero, ?_⟩
    · rw [Float64.positional, if_pos hnil]
    · have hdvd := Nat.dvd_iff_mod_eq_zero.mp (Float64.fraction_eq_nil_iff.mp hnil)
      rw [hdvd]
      rfl
  · have hlength : (Float64.fraction price 4).length ≤ 4 :=
      (List.rdropWhile_prefix _ _).length_le.trans_eq (Float64.length_lastDigits price 4)
    refine ⟨Float64.fraction price 4, ?_, hnil, hlength, fun c hc => ?_, ?_⟩
    · rw [Float64.positional, if_neg hnil]
    · exact Float64.isDigit_of_mem_lastDigits ((List.rdropWhile_prefix _ _).subset hc)
    · have hvalue := Float64.ofDigitChars_fraction price 4
      have hpow : (10 : ℚ) ^ (Float64.fraction price 4).length
          * 10 ^ (4 - (Float64.fraction price 4).length) = 10 ^ 4 := by
        rw [← pow_add, Nat.add_sub_cancel' hlength]
      rw [div_eq_div_iff (by positivity) (by positivity), ← hpow] at hvalue
      have hne : (10 : ℚ) ^ (Float64.fraction price 4).length ≠ 0 := by positivity
      have hcast : ((Nat.ofDigitChars 10 (Float64.fraction price 4) 0 : ℕ) : ℚ)
          * 10 ^ (4 - (Float64.fraction price 4).length) = (price % 10 ^ 4 : ℕ) := by
        refine mul_left_cancel₀ hne ?_
        linarith
      exact_mod_cast hcast

/-- Prices of the column, as Python prints their doubles. -/
theorem decimal?_double {price : ℕ} (h : price < 10 ^ 15) :
    decimal? (Py.double price) = some price := by
  have htext : Py.double price = Float64.positional ['.', '0'] price 4 :=
    Float64.text_shortest h ['.', '0']
  obtain ⟨digits, hpositional, hne, hlength, hdigits, hvalue⟩ := fractionDigits price
  have hwhole : ∀ c ∈ Nat.toDigits 10 (price / 10 ^ 4), c.isDigit = true := fun c hc =>
    JsonText.isDigit_of_mem_toDigits hc
  have hpoint : ∀ c ∈ ('.' :: digits).head?, c.isDigit = false := by
    intro c hc
    obtain rfl := Option.some.inj hc
    rfl
  have hpart : unsigned? (10 ^ 4) digits = some (Nat.ofDigitChars 10 digits 0) := by
    refine if_pos ⟨hne, List.all_eq_true.mpr hdigits, ?_⟩
    have hpow : 0 < 10 ^ (4 - digits.length) := by positivity
    have hle := Nat.le_mul_of_pos_right (Nat.ofDigitChars 10 digits 0) hpow
    have hmod := Nat.mod_lt price (show 0 < 10 ^ 4 by norm_num)
    omega
  rw [htext, hpositional, decimal?, JsonText.takeWhile_digits hwhole hpoint,
    JsonText.dropWhile_digits hwhole hpoint, unsigned?_toDigits (by omega)]
  show (if '.' = '.' ∧ digits.length ≤ 4 then _ else none) = _
  rw [if_pos ⟨rfl, hlength⟩, hpart]
  show some (price / 10 ^ 4 * 10 ^ 4 + _) = _
  rw [hvalue, Nat.div_add_mod']

/-! ### Fields without delimiters -/

/-- A text that a `varchar(255)` column of a file holds. -/
structure PlainText (text : List Char) : Prop where
  short : text.length ≤ 255
  plain : ∀ c ∈ text, c ∉ [',', '\n', '\\']

theorem PlainText.undelimited {text : List Char} (h : PlainText text) : Undelimited ',' '\n' text :=
  ⟨fun hmem => absurd (h.plain ',' hmem) (by decide),
    fun hmem => absurd (h.plain '\n' hmem) (by decide)⟩

theorem varchar?_of_plainText {text : List Char} (h : PlainText text) :
    varchar? text = some text :=
  if_pos ⟨h.short, fun hmem => absurd (h.plain '\\' hmem) (by decide)⟩

/-- Neither delimiter is a digit, a sign or a point. -/
theorem undelimited_of_forall {text : List Char}
    (h : ∀ c ∈ text, c.isDigit ∨ c ∈ ['-', '.', '\\', 'N']) : Undelimited ',' '\n' text := by
  constructor
  · intro hmem
    exact absurd (h ',' hmem) (by decide)
  · intro hmem
    exact absurd (h '\n' hmem) (by decide)

theorem undelimited_toDigits (n : ℕ) : Undelimited ',' '\n' (Nat.toDigits 10 n) :=
  undelimited_of_forall fun _ hc => .inl (JsonText.isDigit_of_mem_toDigits hc)

theorem undelimited_typeField (type : Option (Fin 256)) :
    Undelimited ',' '\n' (typeField type) := by
  cases type with
  | none => exact ⟨by decide, by decide⟩
  | some type => exact undelimited_toDigits type

theorem undelimited_intText (n : ℤ) : Undelimited ',' '\n' (JsonText.intText n) := by
  refine undelimited_of_forall fun c hc => ?_
  rw [JsonText.intText] at hc
  split at hc
  · rcases List.mem_cons.mp hc with rfl | hc
    · exact .inr (by decide)
    · exact .inl (JsonText.isDigit_of_mem_toDigits hc)
  · exact .inl (JsonText.isDigit_of_mem_toDigits hc)

theorem undelimited_double {price : ℕ} (h : price < 10 ^ 15) :
    Undelimited ',' '\n' (Py.double price) := by
  have htext : Py.double price = Float64.positional ['.', '0'] price 4 :=
    Float64.text_shortest h ['.', '0']
  rw [htext]
  refine undelimited_of_forall fun c hc => ?_
  rcases Float64.mem_positional hc with hdigit | rfl | hwhole
  · exact .inl hdigit
  · exact .inr (by decide)
  · rw [List.mem_cons, List.mem_singleton] at hwhole
    rcases hwhole with rfl | rfl
    · exact .inr (by decide)
    · exact .inl rfl

/-! ## Rows that their columns hold -/

/-- Every value of the tables fits its column, and no text has a delimiter. -/
structure Storable (tables : Tables Char) : Prop where
  advertisers : ∀ row ∈ tables.advertisers, (0 < row.advertiserId ∧ row.advertiserId < 2 ^ 32)
    ∧ PlainText row.advertiserName ∧ PlainText row.domain
  adsSizes : ∀ row ∈ tables.adsSizes,
    row.sizeId < 2 ^ 32 ∧ row.adsWidth < 2 ^ 32 ∧ row.adsHeight < 2 ^ 32
  adses : ∀ row ∈ tables.adses, (0 < row.adsId ∧ row.adsId < 2 ^ 32)
    ∧ row.advertiserId < 2 ^ 32 ∧ row.price < 10 ^ 15 ∧ PlainText row.adsTxt
    ∧ row.sizeId < 2 ^ 32
  categoryBlockings : ∀ row ∈ tables.categoryBlockings,
    row.advertiserId < 2 ^ 32 ∧ row.categoryId < 2 ^ 32
  adsFeatures : ∀ row ∈ tables.adsFeatures,
    row.adsId < 2 ^ 32 ∧ -2 ^ 31 ≤ row.feature ∧ row.feature < 2 ^ 31

section Storable

variable {tables : Tables Char} (h : Storable tables)

include h

theorem read_advertisers :
    read ',' '\n' advertiser? (csv tables).advertisers = some tables.advertisers := by
  refine read_write (by decide) (fun row hrow => ⟨List.cons_ne_nil _ _, ?_⟩) fun row hrow => ?_
  · obtain ⟨-, hname, hdomain⟩ := h.advertisers row hrow
    simp only [advertiserFields, List.forall_mem_cons, List.not_mem_nil, false_implies,
      implies_true, and_true]
    exact ⟨undelimited_toDigits _, hname.undelimited, undelimited_typeField _, hdomain.undelimited⟩
  · obtain ⟨hid, hname, hdomain⟩ := h.advertisers row hrow
    simp only [advertiserFields, advertiser?, autoIncrement?_toDigits hid.1 hid.2,
      varchar?_of_plainText hname, varchar?_of_plainText hdomain, tinyint?_typeField]
    rfl

theorem read_adsSizes : read ',' '\n' adSize? (csv tables).adsSizes = some tables.adsSizes := by
  refine read_write (by decide) (fun row hrow => ⟨List.cons_ne_nil _ _, ?_⟩) fun row hrow => ?_
  · simp only [adSizeFields, List.forall_mem_cons, List.not_mem_nil, false_implies,
      implies_true, and_true]
    exact ⟨undelimited_toDigits _, undelimited_toDigits _, undelimited_toDigits _⟩
  · obtain ⟨hid, hwidth, hheight⟩ := h.adsSizes row hrow
    simp only [adSizeFields, adSize?, unsigned?_toDigits hid, unsigned?_toDigits hwidth,
      unsigned?_toDigits hheight]
    rfl

theorem read_adses : read ',' '\n' ads? (csv tables).adses = some tables.adses := by
  refine read_write (by decide) (fun row hrow => ⟨List.cons_ne_nil _ _, ?_⟩) fun row hrow => ?_
  · obtain ⟨-, -, hprice, htxt, -⟩ := h.adses row hrow
    simp only [adsFields, List.forall_mem_cons, List.not_mem_nil, false_implies,
      implies_true, and_true]
    exact ⟨undelimited_toDigits _, undelimited_toDigits _, undelimited_double hprice,
      htxt.undelimited, undelimited_toDigits _⟩
  · obtain ⟨hid, hadvertiser, hprice, htxt, hsize⟩ := h.adses row hrow
    simp only [adsFields, ads?, autoIncrement?_toDigits hid.1 hid.2,
      unsigned?_toDigits hadvertiser, decimal?_double hprice, varchar?_of_plainText htxt,
      unsigned?_toDigits hsize]
    rfl

theorem read_categoryBlockings :
    read ',' '\n' category? (csv tables).categoryBlockings = some tables.categoryBlockings := by
  refine read_write (by decide) (fun row hrow => ⟨List.cons_ne_nil _ _, ?_⟩) fun row hrow => ?_
  · simp only [categoryFields, List.forall_mem_cons, List.not_mem_nil, false_implies,
      implies_true, and_true]
    exact ⟨undelimited_toDigits _, undelimited_toDigits _⟩
  · obtain ⟨hadvertiser, hcategory⟩ := h.categoryBlockings row hrow
    simp only [categoryFields, category?, unsigned?_toDigits hadvertiser,
      unsigned?_toDigits hcategory]
    rfl

theorem read_adsFeatures :
    read ',' '\n' feature? (csv tables).adsFeatures = some tables.adsFeatures := by
  refine read_write (by decide) (fun row hrow => ⟨List.cons_ne_nil _ _, ?_⟩) fun row hrow => ?_
  · simp only [featureFields, List.forall_mem_cons, List.not_mem_nil, false_implies,
      implies_true, and_true]
    exact ⟨undelimited_toDigits _, undelimited_intText _⟩
  · obtain ⟨hid, hfeature⟩ := h.adsFeatures row hrow
    simp only [featureFields, feature?, unsigned?_toDigits hid, int?_intText hfeature]
    rfl

end Storable

end LoadData

/-! ## Statements -/

namespace Database

open LoadData

variable {χ : Type} (db : Database χ)

/-- The tables as `sql/schema.sql` creates them. -/
def empty : Database χ where
  advertisers := []
  adsSizes := []
  adses := []
  categoryBlockings := []
  adsFeatures := []
  advertisers_pk := List.nodup_nil
  adsSizes_pk := List.nodup_nil
  adses_pk := List.nodup_nil
  categoryBlockings_pk := List.nodup_nil
  adsFeatures_pk := List.nodup_nil
  adses_advertiser_fk _ h := nomatch h
  adses_size_fk _ h := nomatch h
  categoryBlockings_fk _ h := nomatch h
  adsFeatures_fk _ h := nomatch h
  adsFeatures_int _ h := nomatch h

theorem eq_of_toTables {db db' : Database χ} (h : db.toTables = db'.toTables) : db = db' := by
  cases db
  cases db'
  cases h
  rfl

def insertAdvertisers (rows : List (AdvertiserRow χ)) : Database χ :=
  if h : ((db.advertisers ++ rows).map AdvertiserRow.advertiserId).Nodup then
    { db with
      advertisers := db.advertisers ++ rows
      advertisers_pk := h
      adses_advertiser_fk := fun ads hads => by
        obtain ⟨row, hrow, hid⟩ := db.adses_advertiser_fk ads hads
        exact ⟨row, List.mem_append_left _ hrow, hid⟩
      categoryBlockings_fk := fun category hcategory => by
        obtain ⟨row, hrow, hid⟩ := db.categoryBlockings_fk category hcategory
        exact ⟨row, List.mem_append_left _ hrow, hid⟩ }
  else db

def insertAdsSizes (rows : List AdSize) : Database χ :=
  if h : ((db.adsSizes ++ rows).map AdSize.sizeId).Nodup then
    { db with
      adsSizes := db.adsSizes ++ rows
      adsSizes_pk := h
      adses_size_fk := fun ads hads => by
        obtain ⟨row, hrow, hid⟩ := db.adses_size_fk ads hads
        exact ⟨row, List.mem_append_left _ hrow, hid⟩ }
  else db

def insertAdses (rows : List (Ads χ)) : Database χ :=
  if h : ((db.adses ++ rows).map Ads.adsId).Nodup
      ∧ (∀ ads ∈ rows, ∃ row ∈ db.advertisers, row.advertiserId = ads.advertiserId)
      ∧ ∀ ads ∈ rows, ∃ row ∈ db.adsSizes, row.sizeId = ads.sizeId then
    { db with
      adses := db.adses ++ rows
      adses_pk := h.1
      adses_advertiser_fk := List.forall_mem_append.mpr ⟨db.adses_advertiser_fk, h.2.1⟩
      adses_size_fk := List.forall_mem_append.mpr ⟨db.adses_size_fk, h.2.2⟩
      adsFeatures_fk := fun feature hfeature => by
        obtain ⟨row, hrow, hid⟩ := db.adsFeatures_fk feature hfeature
        exact ⟨row, List.mem_append_left _ hrow, hid⟩ }
  else db

def insertCategoryBlockings (rows : List CategoryBlockingRow) : Database χ :=
  if h : (db.categoryBlockings ++ rows).Nodup
      ∧ ∀ category ∈ rows, ∃ row ∈ db.advertisers, row.advertiserId = category.advertiserId then
    { db with
      categoryBlockings := db.categoryBlockings ++ rows
      categoryBlockings_pk := h.1
      categoryBlockings_fk := List.forall_mem_append.mpr ⟨db.categoryBlockings_fk, h.2⟩ }
  else db

def insertAdsFeatures (rows : List AdsFeature) : Database χ :=
  if h : ((db.adsFeatures ++ rows).map AdsFeature.adsId).Nodup
      ∧ (∀ feature ∈ rows, ∃ row ∈ db.adses, row.adsId = feature.adsId)
      ∧ ∀ row ∈ rows, -2 ^ 31 ≤ row.feature ∧ row.feature < 2 ^ 31 then
    { db with
      adsFeatures := db.adsFeatures ++ rows
      adsFeatures_pk := h.1
      adsFeatures_fk := List.forall_mem_append.mpr ⟨db.adsFeatures_fk, h.2.1⟩
      adsFeatures_int := List.forall_mem_append.mpr ⟨db.adsFeatures_int, h.2.2⟩ }
  else db

end Database

/-- The tables that the script loads. -/
inductive Table where
  | advertisers
  | adsSizes
  | adses
  | categoryBlockings
  | adsFeatures
deriving Repr, DecidableEq

namespace LoadData

/-- `LOAD DATA INFILE … INTO TABLE … FIELDS TERMINATED BY ','`; a file that cannot be
read fails the statement. -/
def load (files : CsvFiles) (db : Database Char) : Table → Database Char
  | .advertisers =>
      ((read ',' '\n' advertiser? files.advertisers).map db.insertAdvertisers).getD db
  | .adsSizes => ((read ',' '\n' adSize? files.adsSizes).map db.insertAdsSizes).getD db
  | .adses => ((read ',' '\n' ads? files.adses).map db.insertAdses).getD db
  | .categoryBlockings =>
      ((read ',' '\n' category? files.categoryBlockings).map db.insertCategoryBlockings).getD db
  | .adsFeatures =>
      ((read ',' '\n' feature? files.adsFeatures).map db.insertAdsFeatures).getD db

/-- `for i in advertisers ads_sizes adses category_blockings ads_features` -/
def setupDb (files : CsvFiles) : Database Char :=
  [Table.advertisers, .adsSizes, .adses, .categoryBlockings, .adsFeatures].foldl (load files)
    .empty

/-! ## The order of the statements -/

end LoadData

/-- The tables whose rows a row of the table refers to. -/
def Table.parents : Table → List Table
  | .advertisers | .adsSizes => []
  | .adses => [.advertisers, .adsSizes]
  | .categoryBlockings => [.advertisers]
  | .adsFeatures => [.adses]

namespace Tables

variable {χ : Type} (tables : Tables χ)

def IsEmpty : Table → Prop
  | .advertisers => tables.advertisers = []
  | .adsSizes => tables.adsSizes = []
  | .adses => tables.adses = []
  | .categoryBlockings => tables.categoryBlockings = []
  | .adsFeatures => tables.adsFeatures = []

/-- The tables with the rows of those in `loaded` only. -/
def restrict (loaded : List Table) : Tables χ where
  advertisers := if .advertisers ∈ loaded then tables.advertisers else []
  adsSizes := if .adsSizes ∈ loaded then tables.adsSizes else []
  adses := if .adses ∈ loaded then tables.adses else []
  categoryBlockings := if .categoryBlockings ∈ loaded then tables.categoryBlockings else []
  adsFeatures := if .adsFeatures ∈ loaded then tables.adsFeatures else []

/-- What the rows of the table refer to is loaded. -/
def Ready (table : Table) (loaded : List Table) : Prop :=
  tables.IsEmpty table ∨ ∀ parent ∈ table.parents, parent ∈ loaded

end Tables

namespace LoadData

/-- A foreign key into a table that is loaded or not. -/
theorem fk_ite_iff {ρ σ : Type} {rows : List ρ} {parents : List σ} {refers : ρ → σ → Prop}
    (hfk : ∀ row ∈ rows, ∃ parent ∈ parents, refers row parent) (p : Prop) [Decidable p] :
    (∀ row ∈ rows, ∃ parent ∈ if p then parents else [], refers row parent)
      ↔ rows = [] ∨ p := by
  by_cases hp : p
  · rw [if_pos hp]
    exact iff_of_true hfk (.inr hp)
  · rw [if_neg hp, or_iff_left hp]
    constructor
    · intro h
      refine List.eq_nil_iff_forall_not_mem.mpr fun row hrow => ?_
      obtain ⟨_, hmem, -⟩ := h row hrow
      exact absurd hmem List.not_mem_nil
    · rintro rfl row hrow
      exact absurd hrow List.not_mem_nil

section Statement

variable {db state : Database Char} (hdb : Storable db.toTables) {loaded : List Table}
  (hstate : state.toTables = db.toTables.restrict loaded)

include hdb hstate

/-- **One statement** loads its table, or what its rows refer to is missing. -/
theorem load_spec {table : Table} (hnew : table ∉ loaded) :
    (db.toTables.Ready table loaded
        ∧ (load (csv db.toTables) state table).toTables = db.toTables.restrict (loaded ++ [table]))
      ∨ (¬db.toTables.Ready table loaded ∧ load (csv db.toTables) state table = state) := by
  cases table with
  | advertisers =>
      have hnil : state.advertisers = [] := by
        rw [hstate, Tables.restrict, if_neg hnew]
      have hpk : ((state.advertisers ++ db.advertisers).map AdvertiserRow.advertiserId).Nodup := by
        rw [hnil]
        exact db.advertisers_pk
      refine .inl ⟨.inr (List.forall_mem_nil _), ?_⟩
      simp only [load, read_advertisers hdb, Option.map_some, Option.getD_some,
        Database.insertAdvertisers, dif_pos hpk]
      simp [hstate, Tables.restrict, hnew]
  | adsSizes =>
      have hnil : state.adsSizes = [] := by
        rw [hstate, Tables.restrict, if_neg hnew]
      have hpk : ((state.adsSizes ++ db.adsSizes).map AdSize.sizeId).Nodup := by
        rw [hnil]
        exact db.adsSizes_pk
      refine .inl ⟨.inr (List.forall_mem_nil _), ?_⟩
      simp only [load, read_adsSizes hdb, Option.map_some, Option.getD_some,
        Database.insertAdsSizes, dif_pos hpk]
      simp [hstate, Tables.restrict, hnew]
  | adses =>
      have hnil : state.adses = [] := by
        rw [hstate, Tables.restrict, if_neg hnew]
      have hpk : ((state.adses ++ db.adses).map Ads.adsId).Nodup := by
        rw [hnil]
        exact db.adses_pk
      have hready : ((∀ ads ∈ db.adses, ∃ row ∈ state.advertisers,
            row.advertiserId = ads.advertiserId)
          ∧ ∀ ads ∈ db.adses, ∃ row ∈ state.adsSizes, row.sizeId = ads.sizeId)
          ↔ db.toTables.Ready .adses loaded := by
        rw [hstate]
        refine (and_congr (fk_ite_iff db.adses_advertiser_fk (.advertisers ∈ loaded))
          (fk_ite_iff db.adses_size_fk (.adsSizes ∈ loaded))).trans ?_
        simp [Tables.Ready, Tables.IsEmpty, Table.parents, or_and_left]
      simp only [load, read_adses hdb, Option.map_some, Option.getD_some, Database.insertAdses]
      by_cases h : db.toTables.Ready .adses loaded
      · refine .inl ⟨h, ?_⟩
        rw [dif_pos ⟨hpk, hready.mpr h⟩]
        simp [hstate, Tables.restrict, hnew]
      · exact .inr ⟨h, dif_neg fun hall => h (hready.mp hall.2)⟩
  | categoryBlockings =>
      have hnil : state.categoryBlockings = [] := by
        rw [hstate, Tables.restrict, if_neg hnew]
      have hpk : (state.categoryBlockings ++ db.categoryBlockings).Nodup := by
        rw [hnil]
        exact db.categoryBlockings_pk
      have hready : (∀ category ∈ db.categoryBlockings, ∃ row ∈ state.advertisers,
            row.advertiserId = category.advertiserId)
          ↔ db.toTables.Ready .categoryBlockings loaded := by
        rw [hstate]
        refine (fk_ite_iff db.categoryBlockings_fk (.advertisers ∈ loaded)).trans ?_
        simp [Tables.Ready, Tables.IsEmpty, Table.parents]
      simp only [load, read_categoryBlockings hdb, Option.map_some, Option.getD_some,
        Database.insertCategoryBlockings]
      by_cases h : db.toTables.Ready .categoryBlockings loaded
      · refine .inl ⟨h, ?_⟩
        rw [dif_pos ⟨hpk, hready.mpr h⟩]
        simp [hstate, Tables.restrict, hnew]
      · exact .inr ⟨h, dif_neg fun hall => h (hready.mp hall.2)⟩
  | adsFeatures =>
      have hnil : state.adsFeatures = [] := by
        rw [hstate, Tables.restrict, if_neg hnew]
      have hpk : ((state.adsFeatures ++ db.adsFeatures).map AdsFeature.adsId).Nodup := by
        rw [hnil]
        exact db.adsFeatures_pk
      have hready : (∀ feature ∈ db.adsFeatures, ∃ row ∈ state.adses, row.adsId = feature.adsId)
          ↔ db.toTables.Ready .adsFeatures loaded := by
        rw [hstate]
        refine (fk_ite_iff db.adsFeatures_fk (.adses ∈ loaded)).trans ?_
        simp [Tables.Ready, Tables.IsEmpty, Table.parents]
      simp only [load, read_adsFeatures hdb, Option.map_some, Option.getD_some,
        Database.insertAdsFeatures]
      by_cases h : db.toTables.Ready .adsFeatures loaded
      · refine .inl ⟨h, ?_⟩
        rw [dif_pos ⟨hpk, hready.mpr h, db.adsFeatures_int⟩]
        simp [hstate, Tables.restrict, hnew]
      · exact .inr ⟨h, dif_neg fun hall => h (hready.mp hall.2.1)⟩

end Statement

/-- A file that cannot be read changes nothing. -/
theorem getD_isEmpty_iff {ρ : Type} {db : Database Char} {other : Table} {read : Option (List ρ)}
    {insert : List ρ → Database Char}
    (h : ∀ rows, (insert rows).toTables.IsEmpty other ↔ db.toTables.IsEmpty other) :
    ((read.map insert).getD db).toTables.IsEmpty other ↔ db.toTables.IsEmpty other := by
  cases read with
  | none => rfl
  | some rows => exact h rows

/-- A statement leaves the other tables alone. -/
theorem load_isEmpty_iff {table other : Table} (hne : table ≠ other) (files : CsvFiles)
    (db : Database Char) :
    (load files db table).toTables.IsEmpty other ↔ db.toTables.IsEmpty other := by
  cases table with
  | advertisers =>
      refine getD_isEmpty_iff fun rows => ?_
      rw [Database.insertAdvertisers]
      split <;> cases other <;> first | rfl | exact absurd rfl hne
  | adsSizes =>
      refine getD_isEmpty_iff fun rows => ?_
      rw [Database.insertAdsSizes]
      split <;> cases other <;> first | rfl | exact absurd rfl hne
  | adses =>
      refine getD_isEmpty_iff fun rows => ?_
      rw [Database.insertAdses]
      split <;> cases other <;> first | rfl | exact absurd rfl hne
  | categoryBlockings =>
      refine getD_isEmpty_iff fun rows => ?_
      rw [Database.insertCategoryBlockings]
      split <;> cases other <;> first | rfl | exact absurd rfl hne
  | adsFeatures =>
      refine getD_isEmpty_iff fun rows => ?_
      rw [Database.insertAdsFeatures]
      split <;> cases other <;> first | rfl | exact absurd rfl hne

theorem foldl_load_isEmpty_iff {other : Table} {order : List Table} (hnew : other ∉ order)
    (files : CsvFiles) (db : Database Char) :
    (order.foldl (load files) db).toTables.IsEmpty other ↔ db.toTables.IsEmpty other := by
  induction order generalizing db with
  | nil => rfl
  | cons table order ih =>
      rw [List.mem_cons, not_or] at hnew
      exact (ih hnew.2 _).trans (load_isEmpty_iff (Ne.symm hnew.1) files db)

theorem parents_irrefl (table : Table) : table ∉ table.parents := by
  cases table <;> decide

/-- Where every table is loaded or still to be loaded, the remaining statements complete
the database exactly if no table with rows comes before one that they refer to. -/
theorem foldl_load_eq_iff {db state : Database Char} (hdb : Storable db.toTables)
    {loaded order : List Table} (hstate : state.toTables = db.toTables.restrict loaded)
    (hnodup : (loaded ++ order).Nodup) (hall : ∀ table, table ∈ loaded ++ order) :
    order.foldl (load (csv db.toTables)) state = db
      ↔ order.Pairwise fun earlier later =>
          later ∈ earlier.parents → db.toTables.IsEmpty earlier := by
  induction order generalizing loaded state with
  | nil =>
      simp only [List.append_nil] at hall
      refine iff_of_true (Database.eq_of_toTables (hstate.trans ?_)) List.Pairwise.nil
      simp [Tables.restrict, hall]
  | cons table order ih =>
      have hnew : table ∉ loaded := by
        intro hmem
        exact (List.disjoint_of_nodup_append hnodup) hmem (List.mem_cons_self ..)
      have hlater : ∀ other ∈ order, other ∉ loaded := by
        intro other hother hmem
        exact (List.disjoint_of_nodup_append hnodup) hmem (List.mem_cons_of_mem _ hother)
      rw [List.foldl_cons, List.pairwise_cons]
      rcases load_spec hdb hstate hnew with ⟨hready, hstate'⟩ | ⟨hready, hsame⟩
      · rw [ih hstate' (by simpa using hnodup) (by simpa using hall)]
        refine (and_iff_right fun other hother hparent => ?_).symm
        exact hready.resolve_right fun h => hlater other hother (h other hparent)
      · -- the table stays empty, and a parent of it comes later
        rw [hsame]
        obtain ⟨hrows, hmissing⟩ := not_or.mp hready
        push Not at hmissing
        obtain ⟨parent, hparent, hparent_new⟩ := hmissing
        refine iff_of_false (fun heq => ?_) fun h => ?_
        · have htable : table ∉ order := (List.nodup_append.mp hnodup).2.1.notMem
          refine hrows ?_
          rw [← heq, foldl_load_isEmpty_iff htable, hstate]
          cases table <;> exact if_neg hnew
        · have hmem : parent ∈ order := by
            rcases List.mem_append.mp (hall parent) with hmem | hmem
            · exact absurd hmem hparent_new
            · refine (List.mem_cons.mp hmem).resolve_left ?_
              rintro rfl
              exact parents_irrefl parent hparent
          exact hrows (h.1 parent hmem hparent)

/-- **The order of the statements.** Loading the texts of a database, each table once,
gives it back exactly if no table with rows is loaded before one that they refer to. -/
theorem load_eq_iff {db : Database Char} (hdb : Storable db.toTables) {order : List Table}
    (hnodup : order.Nodup) (hall : ∀ table, table ∈ order) :
    order.foldl (load (csv db.toTables)) .empty = db
      ↔ order.Pairwise fun earlier later =>
          later ∈ earlier.parents → db.toTables.IsEmpty earlier := by
  have hempty : (Database.empty : Database Char).toTables = db.toTables.restrict [] := rfl
  exact foldl_load_eq_iff hdb hempty hnodup hall

/-! ## The generated files -/

open CreateData

theorem plainText_of_alphanum {text : List Char} (hlength : text.length ≤ 255)
    (h : ∀ c ∈ text, c.isAlphanum ∨ c = '.') : PlainText text := by
  refine ⟨hlength, fun c hc hmem => ?_⟩
  simp only [List.mem_cons, List.not_mem_nil, or_false] at hmem
  rcases hmem with rfl | rfl | rfl
  all_goals exact absurd (h _ hc) (by decide)

theorem storable_createData {draws : List AdvertiserDraw} (hadvertisers : draws.length < 2 ^ 32)
    (hadses : (createData draws).adses.length < 2 ^ 32) : Storable (createData draws) := by
  have hwritten := written_createData draws
  have hlegible := legible_createData draws
  have hsupplied := supplied_createData draws
  have hid : ∀ {n k : ℕ}, k ∈ List.range' 1 n → 0 < k ∧ k ≤ n := by
    intro n k hk
    rw [List.mem_range'_1] at hk
    omega
  have hads : ∀ k ∈ (createData draws).adses.map Ads.adsId, 0 < k ∧ k < 2 ^ 32 := by
    intro k hk
    rw [adses_counted] at hk
    have := hid hk
    omega
  constructor
  · intro row hrow
    have hrange : row.advertiserId ∈ List.range' 1 draws.length :=
      hwritten.advertisers ▸ List.mem_map_of_mem hrow
    have := hid hrange
    obtain ⟨hlength, hname⟩ := hlegible.names row hrow
    refine ⟨by omega, plainText_of_alphanum (by omega) fun c hc => .inl (hname c hc), ?_⟩
    refine plainText_of_alphanum ?_ (hlegible.domains row hrow)
    rw [hsupplied.domains row hrow]
    omega
  · intro row hrow
    have hall : ∀ row ∈ adsSizes,
        row.sizeId < 2 ^ 32 ∧ row.adsWidth < 2 ^ 32 ∧ row.adsHeight < 2 ^ 32 := by decide
    exact hall row hrow
  · intro row hrow
    have hsize : ∀ sizeId ∈ ADS_SIZE_IDS, sizeId < 2 ^ 32 := by decide
    have howned := hwritten.owned row hrow
    have hprice := hlegible.prices row hrow
    obtain ⟨hlength, htxt⟩ := hlegible.texts row hrow
    refine ⟨hads _ (List.mem_map_of_mem hrow), by omega, by omega, ?_,
      hsize _ (hwritten.sized row hrow)⟩
    exact plainText_of_alphanum (by omega) fun c hc => .inl (htxt c hc)
  · intro row hrow
    have howned := hwritten.categories_owned row hrow
    have hcategory := hlegible.categories row hrow
    omega
  · intro row hrow
    have hfeature := hwritten.features_range row hrow
    have hmem : row.adsId ∈ (createData draws).adses.map Ads.adsId := by
      rw [← features_adsId]
      exact List.mem_map_of_mem hrow
    have := hads _ hmem
    unfold DocumentedFeature at hfeature
    omega

/-- **From the draws to the database.** The script loads what the generator has drawn,
row by row: no value is refused, cut or mistaken for another, and no statement fails. -/
theorem setupDb_createFiles {draws : List AdvertiserDraw} (hadvertisers : draws.length < 2 ^ 32)
    (hadses : (createData draws).adses.length < 2 ^ 32) :
    setupDb (createFiles draws) = createDatabase draws := by
  have hstorable : Storable (createDatabase draws).toTables :=
    storable_createData hadvertisers hadses
  have hempty : (Database.empty : Database Char).toTables
      = (createDatabase draws).toTables.restrict [] := rfl
  have hparents : [Table.advertisers, .adsSizes, .adses, .categoryBlockings, .adsFeatures].Pairwise
      fun earlier later => later ∉ earlier.parents := by decide
  rw [createFiles_eq_csv]
  refine (foldl_load_eq_iff hstorable hempty (by decide) fun table => ?_).mpr
    (hparents.imp fun hnot hparent => absurd hparent hnot)
  cases table <;> decide

theorem setupDb_createFiles_oneAdvertiser :
    setupDb (createFiles [oneAdvertiser]) = createDatabase [oneAdvertiser] :=
  setupDb_createFiles (by decide) (by decide)

/-- Backwards, the order of the script loses the ad of an advertiser. -/
theorem load_eq_iff_backwards :
    [Table.adsFeatures, .categoryBlockings, .adses, .adsSizes, .advertisers].foldl
      (load (csv (createDatabase [oneAdvertiser]).toTables)) .empty
        ≠ createDatabase [oneAdvertiser] := by
  have hstorable : Storable (createDatabase [oneAdvertiser]).toTables :=
    storable_createData (by decide) (by decide)
  intro heq
  have hpairwise :=
    (load_eq_iff hstorable (by decide) fun table => by cases table <;> decide).mp heq
  have hadses := (List.pairwise_cons.mp hpairwise.tail.tail).1 .advertisers (by decide) (by decide)
  exact List.cons_ne_nil _ _ hadses

end LoadData

end AuctionWorker
