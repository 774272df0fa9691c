/-
Royd.Seed.ServiceCatalog — `services_catalog.py`, and `seed_service_catalog` of
`seed.py`, which installs it.

The catalogue is the official list: a service type is a root row, its services
are the rows beneath it. Rows are matched by name and parent, so the seeding
is a list of upserts (Lib.Upserts) whose keys name the id of the type that was
just found or added. `Installed` says that a type is in place; seeding one type
puts it in place (`seedType_installs`), leaves the others there
(`Installed.other`), and does nothing if it is there already
(`Installed.again`).
-/
import Royd.Lib.Upserts
import Royd.Models.Db
import Mathlib

namespace Royd.Seed

open Upserts (Table Columns)

/-! ## The catalogue -/

/-- `(type name, sla_hours, priority, icon, [service names...])`. -/
structure ServiceType where
  name : String
  slaHours : Nat
  priority : Priority
  icon : String
  services : List String
  deriving DecidableEq, Repr

/-- `SERVICE_CATALOG`. -/
def serviceCatalog : List ServiceType :=
  [ { name := "Akademik (o'quv) faoliyati bo'yicha"
      slaHours := 48
      priority := .normal
      icon := "school"
      services :=
        ["QR kodli diplom shakllantirish",
          "Akademik ma'lumotnoma va transkript berish",
          "Akademik mobillik asosida boshqa oliy ta'lim tashkilotiga ketgan talabalarning " ++
            "hujjatlarini tegishli tartibda rasmiylashtirish",
          "Bitiruvchi talabalar uchun aylanma varaqa yaratish",
          "Diplom dublikatini olish uchun ariza yuborishga ko'maklashish",
          "Imtihon natijalari bo'yicha apellyatsiya arizalarini qabul qilishni tashkil qilish",
          "Imtihonlar ro'yxatini shakllantirish va talabaga taqdim etish",
          "Oliy ta'lim tashkilotlari talabalariga o'qishni ko'chirish va qayta tiklash uchun " ++
            "ariza yuborishga ko'maklashish",
          "Oliy ta'lim tashkilotlarining magistratura bosqichiga kirish uchun " ++
            "abituriyentlarga onlayn ariza topshirishiga ko'maklashish",
          "Oliy ta'lim olganlik haqidagi diplom ma'lumotlarini qo'shish yoki tahrirlash uchun " ++
            "talabgorlarga ariza yuborishga ko'maklashish",
          "Stipendiya va turli grant tanlovlarida ishtirok etish uchun ariza qabul qilish",
          "Talabaga o'zining GPA ko'rsatkichi haqida ma'lumotnoma taqdim etish",
          "Talabalar davomatini amaldagi tartibga asosan sababli va sababsiz holatga o'tkazish",
          "Talabalar uchun tegishli fanlardan shaxsiy grafik yaratish",
          "Talabalar hujjatlarini qabul qilish va arxivga topshirish",
          "Talabalarga imtihon natijalarini taqdim etish",
          "Talabalarga qayta o'qish uchun ariza berishga ko'maklashish",
          "Talabalarga turli xil ma'lumotnoma (o'qish joyidan v.b.)lar berish",
          "Talabalarga o'quv varaqa taqdim etish",
          "Talabalarga fan resurslari bo'yicha ma'lumot taqdim etish",
          "Talabalarni HEMIS platformasida keyingi kursga o'tkazish",
          "Talabalarni o'zlashtirish ko'rsatkichlari haqida ma'lumot taqdim etish",
          "Talabalarning joriy, oraliq va davomat natijalariga ko'ra yakuniy nazoratlarda " ++
            "ishtirok etishiga ruxsat berish",
          "Talabalarning parolini tiklash",
          "Talabalarning shaxsiy hamda o'quv ma'lumotlarini tahrirlash",
          "Talabalik guvohnomasini tayyorlash va talabalarga taqdim etish",
          "Talabani bir guruhdan ikkinchi guruhga ko'chirib o'tkazish",
          "Tashqi xizmatlar: Ijtimoiy himoya reyestri va ayollar daftarida turuvchi talabalar " ++
            "yagona reestri bazasidan sinxronizatsiya qilib ro'yxat shakllantirish",
          "O'qishini ko'chirishga tavsiya etilgan, o'qishga tiklangan yoki kursda qolgan " ++
            "talabalarning o'quv rejalaridagi fanlar farqini aniqlash",
          "O'quv dasturlari haqida ma'lumot berish"] },
    { name := "Yoshlar masalalari va ma'naviy-ma'rifiy faoliyat bo'yicha"
      slaHours := 72
      priority := .normal
      icon := "diversity_3"
      services :=
        ["Talabalarga yotoqxonalarga joylashish uchun ariza berishga ko'maklashish",
          "Ijara subsidiyasi uchun ariza yozishga ko'maklashish"] },
    { name := "Xalqaro aloqalar faoliyati bo'yicha"
      slaHours := 72
      priority := .normal
      icon := "public"
      services :=
        ["Talabalarga o'qish joyidan ingliz tilida ma'lumotnoma berish",
          "Turli xalqaro grantlar va akademik mobillik dasturlari bo'yicha ma'lumotlarni " ++
            "taqdim etish",
          "O'qishga qabul qilingan xorijlik talabalarni elektron tizimda ro'yxatga olish va " ++
            "fanlarga biriktirish",
          "Xorijiy oliygohlarda tahsil olishda konsultatsiya berish",
          "Xorijlik talabalar uchun viza rasmiylashtirish amalga oshirish",
          "Xorijlik talabalarga to'lov-shartnomalarini taqdim etish",
          "Xorijlik talabalarni O'zbekiston Respublikasida vaqtinchalik ro'yxatga qo'yish " ++
            "xizmatlarini amalga oshirish",
          "Xorijlik talabalarni o'qishga qabul qilish bo'yicha konsultatsiya berish, ariza va " ++
            "talab etiladigan hujjatlarni ko'rib chiqish uchun qabul qilish"] },
    { name := "Buxgalteriya va marketing bo'yicha"
      slaHours := 72
      priority := .high
      icon := "payments"
      services :=
        ["Qayta o'qishga shartnoma berish",
          "Stipendiya to'g'risida ma'lumotnoma berish",
          "Hisob varag'ini shakllantirib berish",
          "Talabalarga to'lov-shartnomasi olish uchun ariza berishga ko'maklashish",
          "Talabaning yotoqxonalarga joylashish shartnomasi bo'yicha qarzdorligi va " ++
            "haqdorligi haqida ma'lumot berish",
          "Talabaning qayta o'qish shartnomasi bo'yicha qarzdorligi va haqdorligi haqida " ++
            "ma'lumot berish",
          "Talabaning to'lov-shartnomasi bo'yicha qarzdorligi va haqdorligi haqida ma'lumot " ++
            "berish",
          "To'lov-shartnoma summasi haqida ma'lumot berish",
          "Bitiruvchi talabalarga bo'lg'usi ish o'rni to'g'risida kengroq axborotlar berish, " ++
            "mehnat yarmarkalarni o'tkazishga ko'maklashish"] },
    { name := "Ilmiy faoliyat bo'yicha"
      slaHours := 72
      priority := .normal
      icon := "science"
      services :=
        ["Grantlar va tanlovlar haqida ma'lumot berish",
          "Ilmiy konferensiyalar haqida ma'lumot berish",
          "Innovatsion g'oya va startaplarni ro'yxatdan o'tkazishga ko'maklashish",
          "Nomdor stipendiyalar haqida ma'lumot berish",
          "Ilmiy loyihalar to'g'risida konsultatsiya berish",
          "Ustoz-shogird maktabiga a'zo bo'lishga ko'maklashish"] },
    { name := "Ko'rsatilishi zarur bo'lgan boshqa qo'shimcha xizmatlar"
      slaHours := 48
      priority := .normal
      icon := "more_horiz"
      services :=
        ["Talabalarga tibbiy sug'urta olish uchun yordam berish",
          "O'qishga qabul va o'qishni ko'chirish yuzasidan konsultatsiya berish",
          "Talabalarga ishga joylashish borasida tavsiyalar berish",
          "Talabalarga NDKTUda mavjud turli xizmatlar va resurslar haqida ma'lumot berish"] }]

/-- `total_services`. -/
def totalServices (catalog : List ServiceType) : Nat := (catalog.map (·.services.length)).sum

/-- No type is listed twice, and no service twice under its type. -/
structure Tidy (catalog : List ServiceType) : Prop where
  types : (catalog.map (·.name)).Nodup
  services : ∀ t ∈ catalog, t.services.Nodup

theorem serviceCatalog_tidy : Tidy serviceCatalog where
  types := by decide +kernel
  services := by decide +kernel

/-! ## Seeding -/

/-- A category is written to by its id, and looked up by name and parent. -/
def categoryColumns : Columns RequestCategory (Option Nat × String) where
  id := (·.id)
  key := fun c => (c.parentId, c.name)

/-- The root row of a type. -/
def typeEntry (t : ServiceType) : Upserts.Entry categoryColumns where
  key := (none, t.name)
  new := fun id => { id, parentId := none, name := t.name }
  set := fun c =>
    { c with slaHours := t.slaHours, priority := t.priority, icon := some t.icon, isActive := true }
  newId _ := rfl
  newKey _ := rfl
  setId _ := rfl
  setKey _ := rfl
  setSet _ := rfl

/-- The row of a service. It inherits its type's SLA and priority on
creation; on re-runs these are left alone. -/
def serviceEntry (t : ServiceType) (typeId : Nat) (name : String) : Upserts.Entry categoryColumns where
  key := (some typeId, name)
  new := fun id =>
    { id, parentId := some typeId, name, slaHours := t.slaHours, priority := t.priority }
  set := fun c => { c with isActive := true }
  newId _ := rfl
  newKey _ := rfl
  setId _ := rfl
  setKey _ := rfl
  setSet _ := rfl

/-- The body of the loop: the type, then its services, with the ids that go to
`seeded_ids`. -/
def seedType (rows : Table RequestCategory) (t : ServiceType) :
    Option (Table RequestCategory × List Nat) := do
  let (rows, typeId) ← rows.upsert (typeEntry t)
  let (rows, ids) ← rows.upsertAll (t.services.map (serviceEntry t typeId))
  some (rows, typeId :: ids)

/-- The loop over the catalogue. -/
def seedTypes (rows : Table RequestCategory) :
    List ServiceType → Option (Table RequestCategory × List Nat)
  | [] => some (rows, [])
  | t :: ts => do
    let (rows, ids) ← seedType rows t
    let (rows, seeded) ← seedTypes rows ts
    some (rows, ids ++ seeded)

/-- Anything left over from an older catalogue is retired. -/
def retire (seeded : List Nat) (c : RequestCategory) : RequestCategory :=
  if !seeded.contains c.id && c.isActive then { c with isActive := false } else c

/-- The rows of `request_categories`. -/
def categoryTable (db : Db) : Table RequestCategory where
  rows := db.categories
  nextId := db.nextId

/-- `seed_service_catalog`. There is no result where `scalar_one_or_none` finds
two rows: it raises, and nothing is committed. -/
def seedServiceCatalog (catalog : List ServiceType) (db : Db) : Option Db := do
  let (rows, seeded) ← seedTypes (categoryTable db) catalog
  some { db with categories := rows.rows.map (retire seeded), nextId := rows.nextId }

example : (seedServiceCatalog serviceCatalog {}).map (·.categories.length)
    = some (serviceCatalog.length + totalServices serviceCatalog) := by decide +kernel

/-! ## A type in place -/

/-- The type and its services are in place, and `ids` are theirs. -/
def Installed (rows : Table RequestCategory) (t : ServiceType) (ids : List Nat) : Prop :=
  ∃ typeId is, ids = typeId :: is ∧ rows.Holds (typeEntry t) typeId ∧
    List.Forall₂ rows.Holds (t.services.map (serviceEntry t typeId)) is

variable {rows rows' : Table RequestCategory} {t t' : ServiceType} {ids : List Nat}

theorem seedType_eq_some (h : seedType rows t = some (rows', ids)) :
    ∃ rows₁ typeId is, rows.upsert (typeEntry t) = some (rows₁, typeId) ∧
      rows₁.upsertAll (t.services.map (serviceEntry t typeId)) = some (rows', is) ∧
      ids = typeId :: is := by
  obtain ⟨⟨rows₁, typeId⟩, hfirst, h⟩ := Option.bind_eq_some_iff.mp h
  obtain ⟨⟨rows₂, is⟩, hrest, h⟩ := Option.bind_eq_some_iff.mp h
  cases h
  exact ⟨rows₁, typeId, is, hfirst, hrest, rfl⟩

theorem seedType_wf (hwf : rows.Wf categoryColumns) (h : seedType rows t = some (rows', ids)) :
    rows'.Wf categoryColumns ∧ rows.nextId ≤ rows'.nextId := by
  obtain ⟨rows₁, typeId, is, hfirst, hrest, -⟩ := seedType_eq_some h
  obtain ⟨hwf', hle⟩ := Upserts.upsertAll_wf (Upserts.upsert_wf hwf hfirst) hrest
  exact ⟨hwf', Nat.le_trans (Upserts.upsert_nextId hfirst) hle⟩

/-- The keys of the services of a type. -/
theorem serviceEntry_keys (t : ServiceType) (typeId : Nat) :
    (t.services.map (serviceEntry t typeId)).map (·.key) =
      t.services.map fun name => (some typeId, name) := by
  rw [List.map_map]
  rfl

/-- A service of one type is under no other key of the catalogue. -/
theorem service_key {k : Option Nat × String} {typeId : Nat} (h : k.1 ≠ some typeId) :
    k ∉ (t.services.map (serviceEntry t typeId)).map (·.key) := by
  rw [serviceEntry_keys]
  intro hmem
  obtain ⟨name, -, rfl⟩ := List.mem_map.mp hmem
  exact h rfl

/-- The key of a type names no parent. -/
theorem type_key {typeId : Nat} : (typeEntry t).key.1 ≠ some typeId := by
  intro heq
  cases heq

theorem service_keys (hservices : t.services.Nodup) (typeId : Nat) :
    ((t.services.map (serviceEntry t typeId)).map (·.key)).Nodup := by
  rw [serviceEntry_keys]
  exact hservices.map fun a b hab => (Prod.mk.inj hab).2

/-- Seeding a type puts it in place. -/
theorem seedType_installs (hwf : rows.Wf categoryColumns) (hservices : t.services.Nodup)
    (h : seedType rows t = some (rows', ids)) : Installed rows' t ids := by
  obtain ⟨rows₁, typeId, is, hfirst, hrest, rfl⟩ := seedType_eq_some h
  have hwf₁ := Upserts.upsert_wf hwf hfirst
  obtain ⟨r, hone, hid, hset⟩ := Upserts.under_upsert hfirst
  refine ⟨typeId, is, rfl, ⟨r, ?_, hid, hset⟩, ?_⟩
  · exact (Upserts.under_upsertAll_other hwf₁ hrest (service_key type_key)).trans hone
  · exact Upserts.holds_upsertAll hwf₁ (service_keys hservices typeId) hrest

/-- The types of the catalogue have different rows. -/
theorem typeId_ne (hwf : rows.Wf categoryColumns) {i j : Nat} (h : rows.Holds (typeEntry t) i)
    (h' : rows.Holds (typeEntry t') j) (hne : t.name ≠ t'.name) : i ≠ j := by
  obtain ⟨r, hone, rfl, -⟩ := h
  obtain ⟨r', hone', rfl, -⟩ := h'
  obtain ⟨hr, hkey⟩ := Upserts.mem_under.mp (hone ▸ List.mem_singleton_self r)
  obtain ⟨hr', hkey'⟩ := Upserts.mem_under.mp (hone' ▸ List.mem_singleton_self r')
  intro hid
  cases Tables.eq_of_key hwf.ids hr hr' hid
  exact hne (Prod.mk.inj (hkey.symm.trans hkey')).2

/-- Seeding a type leaves another one in place. -/
theorem Installed.other (hwf : rows.Wf categoryColumns) {ids' : List Nat}
    (h : Installed rows t' ids') (hseed : seedType rows t = some (rows', ids))
    (hne : t.name ≠ t'.name) : Installed rows' t' ids' := by
  obtain ⟨rows₁, typeId, is, hfirst, hrest, rfl⟩ := seedType_eq_some hseed
  obtain ⟨typeId', is', rfl, htype, hservices⟩ := h
  have hwf₁ := Upserts.upsert_wf hwf hfirst
  have htype₁ := htype.other hwf hfirst fun heq => hne (Prod.mk.inj heq).2
  have hids := typeId_ne hwf₁ (Upserts.under_upsert hfirst) htype₁ hne
  have hkept : ∀ {e : Upserts.Entry categoryColumns} {i : Nat}, rows₁.Holds e i → e.key.1 ≠ some typeId →
      rows'.Holds e i := by
    rintro e i ⟨r, hone, hid, hset⟩ hkey
    exact ⟨r, (Upserts.under_upsertAll_other hwf₁ hrest (service_key hkey)).trans hone, hid, hset⟩
  refine ⟨typeId', is', rfl, hkept htype₁ type_key, ?_⟩
  refine List.forall₂_map_left_iff.mpr ((List.forall₂_map_left_iff.mp hservices).imp ?_)
  intro name i hholds
  refine hkept (hholds.other hwf hfirst fun heq => ?_) fun heq => hids (Option.some.inj heq).symm
  cases (Prod.mk.inj heq).1

/-- A type that is in place is found there and left alone. -/
theorem Installed.again (hwf : rows.Wf categoryColumns) (h : Installed rows t ids) :
    seedType rows t = some (rows, ids) := by
  obtain ⟨typeId, is, rfl, htype, hservices⟩ := h
  unfold seedType
  rw [htype.upsert hwf]
  dsimp only [Option.bind_eq_bind, Option.bind_some]
  rw [Upserts.upsertAll_of_holds hwf hservices]
  rfl

end Royd.Seed
