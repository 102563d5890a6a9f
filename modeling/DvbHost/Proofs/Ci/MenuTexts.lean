import DvbHost.Ci.Menu
import DvbHost.Proofs.Ci.UnitStreams

/-!
# The texts of a menu

A menu is a count and texts in units. A text is one unit that ends it, with units of its beginning
in front. `Written` says so of whole menus, and leaves room for units behind the last text. Exactly
those menus are read that have nothing there but the beginning of a text without an octet of it
(`read_eq_ok_iff`).
-/

namespace DvbHost.Ci.Menu

set_option autoImplicit false

/-! ## Layouts -/

/-- Units that begin a text, and a unit that ends it. -/
def TextWritten (units : List Apdu) (text : String) : Prop :=
  ∃ (begun : List Apdu) (last : Apdu), units = begun ++ [last] ∧
    (∀ u ∈ begun, u.tag = tagTextMore) ∧ last.tag = tagTextLast ∧
    text = (⟨units.flatMap Apdu.data⟩ : DvbText).text

/-- Texts one after the other, and units behind them. -/
def TextsWritten (units : List Apdu) (texts : List String) (behind : List Apdu) : Prop :=
  ∃ groups : List (List Apdu), units = groups.flatten ++ behind ∧
    List.Forall₂ TextWritten groups texts

/-- A count of one octet, three texts and those of the items, and units behind them. -/
def Written (data : Bytes) (menu : Menu) (behind : List Apdu) : Prop :=
  ∃ (count : UInt8) (stream : Bytes) (units : List Apdu), data = count :: stream ∧
    Cursor.Many Apdu.Written stream units ∧
    TextsWritten units (menu.title :: menu.subtitle :: menu.bottom :: menu.items) behind

/-- The beginning of a text, with no octet of it. -/
def Blank (u : Apdu) : Prop := u.tag = tagTextMore ∧ u.data = []

variable {data : Bytes} {units begun behind : List Apdu} {texts : List String} {text : String}
  {menu : Menu}

theorem TextsWritten.cons (h : TextWritten begun text) (hrest : TextsWritten units texts behind) :
    TextsWritten (begun ++ units) (text :: texts) behind := by
  obtain ⟨groups, rfl, hgroups⟩ := hrest
  exact ⟨begun :: groups, by rw [List.flatten_cons, List.append_assoc], .cons h hgroups⟩

/-- The last unit of texts ends a text. -/
theorem tag_of_getLast?_flatten {groups : List (List Apdu)}
    (h : List.Forall₂ TextWritten groups texts) :
    ∀ u ∈ groups.flatten.getLast?, u.tag = tagTextLast := by
  induction h with
  | nil => exact nofun
  | @cons group text groups texts hgroup _ ih =>
    intro u hu
    obtain ⟨begun, last, rfl, -, hlast, -⟩ := hgroup
    rw [List.flatten_cons, List.getLast?_append, List.getLast?_concat] at hu
    cases hrest : groups.flatten.getLast? with
    | none =>
      rw [hrest] at hu
      cases hu
      exact hlast
    | some v =>
      rw [hrest] at hu
      cases hu
      exact ih u hrest

/-! ## Reading texts -/

theorem tagTextLast_ne : tagTextLast ≠ tagTextMore := by decide

theorem begun_nil : ∀ u ∈ ([] : List Apdu), u.tag = tagTextMore := nofun

/-- The beginnings of a text are joined. -/
theorem textsAfter_append (h : ∀ u ∈ begun, u.tag = tagTextMore) (chain : Bytes)
    (items : List (Except CiError Apdu)) :
    textsAfter chain (begun.map .ok ++ items) =
      textsAfter (chain ++ begun.flatMap Apdu.data) items := by
  induction begun generalizing chain with
  | nil => rw [List.flatMap_nil, List.append_nil]; rfl
  | cons u begun ih =>
    obtain ⟨hu, hbegun⟩ := List.forall_mem_cons.mp h
    rw [List.map_cons, List.cons_append, textsAfter, if_pos hu, ih hbegun, List.flatMap_cons,
      List.append_assoc]

theorem textsAfter_text (h : TextWritten units text) (items : List (Except CiError Apdu)) :
    textsAfter [] (units.map .ok ++ items) = (textsAfter [] items).map (text :: ·) := by
  obtain ⟨begun, last, rfl, hbegun, hlast, rfl⟩ := h
  rw [List.map_append, List.append_assoc, textsAfter_append hbegun, List.map_singleton,
    List.singleton_append, textsAfter, if_neg (hlast ▸ tagTextLast_ne), if_pos hlast,
    List.flatMap_append, List.flatMap_singleton, List.nil_append]

theorem textsAfter_blank (h : ∀ u ∈ behind, Blank u) :
    textsAfter [] (behind.map .ok) = .ok [] := by
  have hempty : behind.flatMap Apdu.data = [] :=
    List.flatMap_eq_nil_iff.mpr fun u hu => (h u hu).2
  rw [← List.append_nil (behind.map _), textsAfter_append fun u hu => (h u hu).1, hempty]
  rfl

theorem textsAfter_of_written (h : TextsWritten units texts behind)
    (hbehind : ∀ u ∈ behind, Blank u) : textsAfter [] (units.map .ok) = .ok texts := by
  obtain ⟨groups, rfl, hgroups⟩ := h
  induction hgroups with
  | nil => exact textsAfter_blank hbehind
  | cons hgroup _ ih =>
    rw [List.flatten_cons, List.append_assoc, List.map_append, textsAfter_text hgroup, ih]
    rfl

/-- What has been read are texts; `begun` are the units of one that has not come to its end. -/
theorem written_of_textsAfter {items : List (Except CiError Apdu)}
    (hbegun : ∀ u ∈ begun, u.tag = tagTextMore)
    (h : textsAfter (begun.flatMap Apdu.data) items = .ok texts) :
    ∃ units behind, items = units.map .ok ∧ TextsWritten (begun ++ units) texts behind ∧
      ∀ u ∈ behind, Blank u := by
  -- On the items; the units of the text that has begun are carried along, not only their octets.
  induction items generalizing begun texts with
  | nil =>
    rw [textsAfter] at h
    split_ifs at h with hempty
    cases h
    refine ⟨[], begun, rfl, ⟨[], List.append_nil _, .nil⟩, fun u hu => ⟨hbegun u hu, ?_⟩⟩
    exact List.flatMap_eq_nil_iff.mp (List.isEmpty_iff.mp hempty) u hu
  | cons item items ih =>
    cases item with
    | error e => cases h
    | ok u =>
      rw [textsAfter] at h
      split_ifs at h with hmore hlast
      · have hnext : textsAfter ((begun ++ [u]).flatMap Apdu.data) items = .ok texts := by
          rwa [List.flatMap_append, List.flatMap_singleton]
        obtain ⟨units, behind, rfl, hwritten, hblank⟩ :=
          ih (List.forall_mem_append.mpr ⟨hbegun, List.forall_mem_singleton.mpr hmore⟩) hnext
        exact ⟨u :: units, behind, rfl, by rwa [List.append_cons], hblank⟩
      · obtain ⟨others, hothers, rfl⟩ := Outcome.ok_of_map h
        obtain ⟨units, behind, rfl, hwritten, hblank⟩ := ih begun_nil hothers
        refine ⟨u :: units, behind, rfl, ?_, hblank⟩
        rw [List.append_cons]
        refine .cons ⟨begun, u, rfl, hbegun, hlast, ?_⟩ hwritten
        rw [List.flatMap_append, List.flatMap_singleton]

theorem texts_eq_ok_iff (stream : Bytes) (texts : List String) :
    Menu.texts stream = .ok texts ↔
      ∃ units behind, Cursor.Many Apdu.Written stream units ∧ TextsWritten units texts behind ∧
        ∀ u ∈ behind, Blank u := by
  constructor
  · intro h
    obtain ⟨units, behind, hitems, hwritten, hblank⟩ := written_of_textsAfter begun_nil h
    exact ⟨units, behind, (Apdu.items_eq_ok_iff stream units).mp hitems, hwritten, hblank⟩
  · rintro ⟨units, behind, hunits, hwritten, hblank⟩
    rw [Menu.texts, (Apdu.items_eq_ok_iff stream units).mpr hunits]
    exact textsAfter_of_written hwritten hblank

/-! ## Reading menus -/

/-- What is read is written, with the beginning of a text behind it at most. -/
theorem exists_written_iff (data : Bytes) (menu : Menu) :
    Menu.read data = .ok menu ↔ ∃ behind, (∀ u ∈ behind, Blank u) ∧ Written data menu behind := by
  cases data with
  | nil =>
    refine iff_of_false nofun ?_
    rintro ⟨_, -, _, _, _, hnil, -⟩
    cases hnil
  | cons count stream =>
    have htexts : Menu.read (count :: stream) = .ok menu ↔
        Menu.texts stream = .ok (menu.title :: menu.subtitle :: menu.bottom :: menu.items) := by
      rw [Menu.read]
      obtain ⟨title, subtitle, bottom, items⟩ := menu
      constructor
      · intro h
        split at h
        · cases h
        · next hok =>
          cases h
          exact hok
        · cases h
      · intro h
        rw [h]
    rw [htexts, texts_eq_ok_iff]
    constructor
    · rintro ⟨units, behind, hunits, hwritten, hblank⟩
      exact ⟨behind, hblank, count, stream, units, rfl, hunits, hwritten⟩
    · rintro ⟨behind, hblank, _, _, units, ⟨⟩, hunits, hwritten⟩
      exact ⟨units, behind, hunits, hwritten, hblank⟩

/-- Octets that end with a text do not end with the beginning of one. -/
theorem behind_eq_nil (h : Written data menu []) {menu' : Menu} (hblank : ∀ u ∈ behind, Blank u)
    (h' : Written data menu' behind) : behind = [] := by
  obtain ⟨count, stream, units, rfl, hunits, groups, hgroups, htexts⟩ := h
  obtain ⟨_, _, units', ⟨⟩, hunits', groups', hgroups', -⟩ := h'
  have hsame := Apdu.eq_of_many hunits ((Apdu.items_eq_ok_iff stream units').mpr hunits')
  by_contra hne
  have hlast : groups.flatten.getLast? = some (behind.getLast hne) := by
    rw [← List.append_nil groups.flatten, ← hgroups, hsame, hgroups', List.getLast?_append,
      List.getLast?_eq_some_getLast hne, Option.some_or]
  have hends := tag_of_getLast?_flatten htexts _ hlast
  rw [(hblank _ (List.getLast_mem hne)).1] at hends
  exact tagTextLast_ne hends.symm

/-- Octets are read as a menu exactly if they are its layout, with nothing behind it but the
beginning of a text without an octet. So they are its layout exactly if they are read and there is
no such beginning. -/
theorem read_eq_ok_iff (data : Bytes) (menu : Menu) :
    (Menu.read data = .ok menu ↔
      ∃ behind, (∀ u ∈ behind, Blank u) ∧ Written data menu behind) ∧
    (Written data menu [] ↔ Menu.read data = .ok menu ∧
      ∀ behind, (∀ u ∈ behind, Blank u) → Written data menu behind → behind = []) := by
  refine ⟨exists_written_iff data menu, fun h => ⟨?_, fun _ => behind_eq_nil h⟩, ?_⟩
  · exact (exists_written_iff data menu).mpr ⟨[], nofun, h⟩
  · rintro ⟨h, hnone⟩
    obtain ⟨behind, hblank, hwritten⟩ := (exists_written_iff data menu).mp h
    obtain rfl := hnone behind hblank hwritten
    exact hwritten

/-- Three empty texts, and the beginning of a fourth one. -/
def unended : Bytes :=
  [0, 0x9F, 0x88, 3, 0, 0x9F, 0x88, 3, 0, 0x9F, 0x88, 3, 0, 0x9F, 0x88, 4, 0]

/-- A menu is read although nothing ends the text that begins behind it. -/
theorem unended_read :
    ¬ ∀ (data : Bytes) (menu : Menu), Menu.read data = .ok menu ↔ Written data menu [] := by
  intro hread
  have hmenu : Menu.read unended = .ok ⟨"", "", "", []⟩ := by decide
  obtain ⟨count, stream, units, hdata, hunits, groups, hgroups, htexts⟩ := (hread _ _).mp hmenu
  cases hdata
  have hsame : units =
      [⟨tagTextLast, []⟩, ⟨tagTextLast, []⟩, ⟨tagTextLast, []⟩, ⟨tagTextMore, []⟩] :=
    Apdu.eq_of_many hunits (by decide)
  have hlast : ⟨tagTextMore, []⟩ ∈ groups.flatten.getLast? := by
    rw [← List.append_nil groups.flatten, ← hgroups, hsame]
    rfl
  exact tagTextLast_ne (tag_of_getLast?_flatten htexts _ hlast).symm

end DvbHost.Ci.Menu
