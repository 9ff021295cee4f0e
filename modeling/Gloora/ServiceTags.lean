import Gloora.Lib.JsText
import Gloora.Registration

/-!
# The services of the registration form

The script of register_salon.html, from what is typed into the box to the hidden inputs that
are posted. The names and prices it shows are taken as text: what markup in a name would do
to the page is left out.
-/

namespace Gloora
set_option autoImplicit false

open PyText Binary64 Keyed Runs Threads Transactions

section Script

structure Tag where
  name : Text
  price : Text
deriving DecidableEq

/-- What `addServiceLogic` makes of the box: a tag, or the text of an alert, or nothing. -/
inductive Typed where
  | nothing
  | alert (message : Text)
  | tag (tag : Tag)
deriving DecidableEq

def readTag (value : Text) : Typed :=
  let input := JsText.trim value
  if input.isEmpty then .nothing
  else
    let parts := JsText.splitSpaces input
    if parts.length < 2 then
      .alert "Enter service name and price (e.g., Haircut 200)".toList
    else
      let price := parts.getLastD []
      if JsText.number price = .nan then .alert "Price must be a number".toList
      else .tag ⟨[' '].intercalate parts.dropLast, price⟩

/-- The variable `tags` and the value of the input `serviceInput`. -/
structure ServiceBox where
  tags : List Tag := []
  serviceInput : Text := []
deriving DecidableEq

namespace ServiceBox
variable (box : ServiceBox)

def addServiceLogic : ServiceBox :=
  match readTag box.serviceInput with
  | .nothing | .alert _ => box
  | .tag tag =>
    { tags := if box.tags.any fun t => t.name == tag.name then box.tags else box.tags ++ [tag]
      serviceInput := [] }

def removeTag (name : Text) : ServiceBox :=
  { box with tags := box.tags.filter fun t => t.name != name }

/-- The form with the hidden inputs of `updateTags`. -/
def filled (form : SalonForm) : SalonForm :=
  { form with
    serviceNames := box.tags.map Tag.name
    servicePrices := box.tags.map Tag.price }

/-- The submit handler, which adds what is still in the box. -/
def submit : ServiceBox :=
  if (JsText.trim box.serviceInput).isEmpty then box else box.addServiceLogic

/-- The form that is sent; without a tag the handler only alerts. -/
def posted (form : SalonForm) : Option SalonForm :=
  if box.submit.tags.isEmpty then none else some (box.submit.filled form)

end ServiceBox

/-- What happens on the page: a text is put into the box, Enter or the button is pressed, the
cross of a tag is clicked, the form is submitted. -/
inductive BoxEvent where
  | input (value : Text)
  | add
  | remove (name : Text)
  | submit
deriving DecidableEq

def ServiceBox.step (box : ServiceBox) : BoxEvent → ServiceBox
  | .input value => { box with serviceInput := value }
  | .add => box.addServiceLogic
  | .remove name => box.removeTag name
  | .submit => box.submit

def ServiceBox.after (evs : List BoxEvent) : ServiceBox := evs.foldl step {}

end Script

section Tags
variable {value : Text} {tag : Tag} {c : Char}

/-- What is known of a tag that the form accepts. -/
structure Tag.Accepted (tag : Tag) : Prop where
  name_ne : tag.name ≠ []
  front : ∀ c, tag.name.head? = some c → JsText.isSpace c = false
  back : ∀ c, tag.name.getLast? = some c → JsText.isSpace c = false
  price_ne : tag.price ≠ []
  price : ∀ c ∈ tag.price, JsText.isSpace c = false
  number : JsText.number tag.price ≠ .nan

/-- A join has the ends of its first and its last part. -/
theorem intercalate_ends {parts : List Text} (hne : parts ≠ [])
    (h : ∀ part ∈ parts, part ≠ [] ∧ ∀ c ∈ part, JsText.isSpace c = false) :
    [' '].intercalate parts ≠ [] ∧
      (∀ c, ([' '].intercalate parts).head? = some c → JsText.isSpace c = false) ∧
      ∀ c, ([' '].intercalate parts).getLast? = some c → JsText.isSpace c = false := by
  induction parts with
  | nil => exact absurd rfl hne
  | cons part parts ih =>
    obtain ⟨hpart, hspace⟩ := h part List.mem_cons_self
    obtain ⟨first, rest, rfl⟩ := List.exists_cons_of_ne_nil hpart
    cases parts with
    | nil =>
      rw [List.intercalate_singleton]
      exact ⟨hpart, fun c hc => hspace c (List.mem_of_head? hc),
        fun c hc => hspace c (List.mem_of_getLast? hc)⟩
    | cons part' parts =>
      obtain ⟨hjoin, -, hback⟩ := ih (by simp) fun p hp => h p (List.mem_cons_of_mem _ hp)
      rw [List.intercalate_cons_cons]
      refine ⟨by simp, ?_, ?_⟩
      · intro c hc
        simp only [List.cons_append, List.head?_cons, Option.some.injEq] at hc
        exact hspace c (by simp [hc])
      · intro c hc
        rw [List.getLast?_append_of_ne_nil _ hjoin] at hc
        exact hback c hc

theorem readTag_accepted (h : readTag value = .tag tag) : tag.Accepted := by
  unfold readTag at h
  simp only at h
  split at h
  · cases h
  split at h
  · cases h
  rename_i hlength
  split at h
  · cases h
  rename_i hnumber
  obtain rfl := (Typed.tag.inj h).symm
  obtain ⟨parts, hparts⟩ : ∃ parts, JsText.splitSpaces (JsText.trim value) = parts := ⟨_, rfl⟩
  have hpart : ∀ part ∈ parts, part ≠ [] ∧ ∀ c ∈ part, JsText.isSpace c = false := by
    intro part hmem
    exact JsText.mem_splitSpaces (hparts ▸ hmem)
  rw [hparts] at hlength hnumber ⊢
  have hne : parts ≠ [] := by
    rintro rfl
    simp at hlength
  have hinit : parts.dropLast ≠ [] := by
    intro hnil
    have hlen := congrArg List.length hnil
    rw [List.length_dropLast, List.length_nil] at hlen
    omega
  have hlast : parts.getLastD [] ∈ parts := by
    rw [List.getLastD_eq_getLast?, List.getLast?_eq_some_getLast hne]
    exact List.getLast_mem hne
  obtain ⟨hname, hfront, hback⟩ := intercalate_ends hinit fun part hmem =>
    hpart part (List.mem_of_mem_dropLast hmem)
  exact ⟨hname, hfront, hback, (hpart _ hlast).1, (hpart _ hlast).2, hnumber⟩

/-- The characters that are white space to Python only. -/
def IsSeparator (c : Char) : Prop := c.toNat ∈ [0x1c, 0x1d, 0x1e, 0x1f, 0x85]

theorem isSeparator_iff (h : JsText.isSpace c = false) : IsSeparator c ↔ isSpace c = true := by
  have hboth : ∀ n ∈ spaceCodes, n ∈ JsText.spaceCodes ∨ n ∈ [0x1c, 0x1d, 0x1e, 0x1f, 0x85] := by
    decide
  have hsep : ∀ n ∈ [0x1c, 0x1d, 0x1e, 0x1f, 0x85], n ∈ spaceCodes := by decide
  simp only [JsText.isSpace, isSpace, List.contains_eq_mem, decide_eq_false_iff_not,
    decide_eq_true_eq] at h ⊢
  exact ⟨fun hmem => hsep _ hmem, fun hmem => (hboth _ hmem).resolve_left h⟩

/-- A tag that both languages read alike: its price is no hexadecimal, octal or binary literal
and its name has none of Python's own white space at its ends. -/
structure Tag.Portable (tag : Tag) : Prop where
  price : JsText.nonDecimal? tag.price = none
  front : ∀ c, tag.name.head? = some c → ¬ IsSeparator c
  back : ∀ c, tag.name.getLast? = some c → ¬ IsSeparator c

theorem Tag.Accepted.strip_name (h : tag.Accepted) : strip tag.name = tag.name ↔
    (∀ c, tag.name.head? = some c → ¬ IsSeparator c) ∧
      ∀ c, tag.name.getLast? = some c → ¬ IsSeparator c := by
  rw [strip_eq_self]
  apply and_congr
  · exact forall_congr' fun c => forall_congr' fun hc => by
      rw [isSeparator_iff (h.front c hc), Bool.not_eq_true]
  · exact forall_congr' fun c => forall_congr' fun hc => by
      rw [isSeparator_iff (h.back c hc), Bool.not_eq_true]

/-- What the loop over the submitted services does with a tag. -/
theorem Tag.Accepted.validService (h : tag.Accepted) : validService tag.name tag.price =
    if strip tag.name = [] ∨ (JsText.nonDecimal? tag.price).isSome then none
    else some (strip tag.name, JsText.number tag.price) := by
  obtain ⟨hstrip, hread⟩ :=
    JsText.pyFloat_strip_of_number (JsText.trim_of_isSpace h.price) h.price_ne h.number
  have hprice : tag.price.isEmpty = false := by simpa using h.price_ne
  simp only [Gloora.validService, hstrip, hread, hprice, Bool.or_false, List.isEmpty_iff]
  by_cases hname : strip tag.name = []
  · simp [hname]
  · cases hnon : JsText.nonDecimal? tag.price <;> simp [hname]

theorem Tag.Accepted.kept_iff (h : tag.Accepted) :
    Gloora.validService tag.name tag.price = some (tag.name, JsText.number tag.price) ↔
      tag.Portable := by
  rw [h.validService]
  constructor
  · intro hkept
    split at hkept
    · cases hkept
    rename_i hvalid
    obtain ⟨-, hnon⟩ := not_or.mp hvalid
    obtain ⟨hname, -⟩ := Prod.mk.inj (Option.some.inj hkept)
    obtain ⟨hfront, hback⟩ := h.strip_name.mp hname
    exact ⟨by simpa using hnon, hfront, hback⟩
  · rintro ⟨hnon, hfront, hback⟩
    have hname := h.strip_name.mpr ⟨hfront, hback⟩
    rw [hname, if_neg (by simp [hnon, h.name_ne])]

end Tags

section Page

theorem ServiceBox.addServiceLogic_accepted {box : ServiceBox} (h : ∀ tag ∈ box.tags, tag.Accepted) :
    ∀ tag ∈ box.addServiceLogic.tags, tag.Accepted := by
  unfold addServiceLogic
  split
  · exact h
  · exact h
  · rename_i tag hread
    simp only
    split
    · exact h
    · intro t ht
      rcases List.mem_append.mp ht with hold | hnew
      · exact h t hold
      · obtain rfl := List.mem_singleton.mp hnew
        exact readTag_accepted hread

theorem ServiceBox.submit_accepted {box : ServiceBox} (h : ∀ tag ∈ box.tags, tag.Accepted) :
    ∀ tag ∈ box.submit.tags, tag.Accepted := by
  unfold submit
  split
  · exact h
  · exact addServiceLogic_accepted h

theorem ServiceBox.step_accepted {box : ServiceBox} (h : ∀ tag ∈ box.tags, tag.Accepted)
    (ev : BoxEvent) : ∀ tag ∈ (box.step ev).tags, tag.Accepted := by
  cases ev with
  | input value => exact h
  | add => exact addServiceLogic_accepted h
  | remove name => exact fun tag htag => h tag (List.mem_of_mem_filter htag)
  | submit => exact submit_accepted h

/-- Whatever happens on the page, its tags are accepted ones. -/
theorem ServiceBox.after_accepted (page : List BoxEvent) :
    ∀ tag ∈ (ServiceBox.after page).tags, tag.Accepted := by
  induction page using List.reverseRecOn with
  | nil => simp [after]
  | append_singleton page ev ih =>
    rw [after, List.foldl_append]
    exact step_accepted ih ev

theorem priced_filled (box : ServiceBox) (form : SalonForm) :
    priced (validServices (box.filled form)) = box.tags.filterMap fun tag =>
      (validService tag.name tag.price).map fun p => (p.1, sqliteReal p.2) := by
  rw [priced, validServices, List.map_filterMap]
  simp only [ServiceBox.filled, List.zip_map', List.filterMap_map]
  rfl

theorem sqliteReal_eq_some {x y : Double} : sqliteReal x = some y ↔ x = y ∧ x ≠ .nan := by
  cases x <;> simp [sqliteReal]

theorem Tag.Accepted.priced_iff {tag : Tag} (h : tag.Accepted) :
    ((Gloora.validService tag.name tag.price).map fun p => (p.1, sqliteReal p.2)) =
      some (tag.name, some (JsText.number tag.price)) ↔ tag.Portable := by
  rw [← h.kept_iff, Option.map_eq_some_iff]
  constructor
  · rintro ⟨⟨name, price⟩, hkept, hpair⟩
    obtain ⟨rfl, hprice⟩ := Prod.mk.inj hpair
    obtain ⟨rfl, -⟩ := sqliteReal_eq_some.mp hprice
    exact hkept
  · intro hkept
    exact ⟨_, hkept, by rw [sqliteReal_eq_some.mpr ⟨rfl, h.number⟩]⟩

/-- A tag, and all tags of a registration, are stored as the page shows them exactly when both
languages read them alike. -/
theorem tags_stored_iff (P : Platform) (jar : Nat → List Session) (evs : List ServerMove)
    (σ : Server) (h : Run (PoolStep P) (Server.start initAllDatabases jar) evs σ) (env : Env)
    (s : Session) (page : List BoxEvent) (fields form : SalonForm)
    (hposted : (ServiceBox.after page).posted fields = some form)
    (haccepted : (handle P env σ.store.db s (.registerSalon form)).body =
      .redirect "show_salons".toList none) :
    let tags := (ServiceBox.after page).submit.tags
    (∀ value tag, readTag value = .tag tag →
      (validService tag.name tag.price = some (tag.name, JsText.number tag.price) ↔
        tag.Portable)) ∧
    (menu (handle P env σ.store.db s (.registerSalon form)).db (σ.store.db.salons.seq + 1) =
        tags.map (fun tag => (tag.name, some (JsText.number tag.price))) ↔
      ∀ tag ∈ tags, tag.Portable) := by
  intro tags
  have htags : ∀ tag ∈ tags, tag.Accepted :=
    ServiceBox.submit_accepted (ServiceBox.after_accepted page)
  refine ⟨fun value tag hread => (readTag_accepted hread).kept_iff, ?_⟩
  have hform : form = (ServiceBox.after page).submit.filled fields := by
    unfold ServiceBox.posted at hposted
    split at hposted
    · cases hposted
    · exact (Option.some.inj hposted).symm
  have hmenu : menu (registerSalon P env σ.store.db s form).db (σ.store.db.salons.seq + 1) =
      priced (validServices form) := menu_registered (linked_run h) haccepted
  change menu (registerSalon P env σ.store.db s form).db (σ.store.db.salons.seq + 1) = _ ↔ _
  rw [hmenu, hform, priced_filled, List.filterMap_eq_map_iff_forall_eq_some]
  exact forall_congr' fun tag => forall_congr' fun htag => (htags tag htag).priced_iff

/-- Two services, the second of which is still in the box when the form is sent. -/
def typedServices (first second : String) : List BoxEvent :=
  [.input first.toList, .add, .input second.toList]

def typedForm (first second : String) : SalonForm :=
  (ServiceBox.after (typedServices first second)).submit.filled secondForm

theorem tags_stored_iff_again :
    let page := typedServices "Hair  cut 200" " Shave 5e1"
    let tags := (ServiceBox.after page).submit.tags
    (∀ value tag, readTag value = .tag tag →
      (validService tag.name tag.price = some (tag.name, JsText.number tag.price) ↔
        tag.Portable)) ∧
    (menu (handle plain (calmly 0 "order") firstSalon.final.store.db {}
        (.registerSalon (typedForm "Hair  cut 200" " Shave 5e1"))).db
        (firstSalon.final.store.db.salons.seq + 1) =
        tags.map (fun tag => (tag.name, some (JsText.number tag.price))) ↔
      ∀ tag ∈ tags, tag.Portable) :=
  tags_stored_iff plain _ _ _ firstSalon.run (calmly 0 "order") {} _ secondForm _
    (by decide +kernel) (by decide +kernel)

theorem hexadecimal_tag_dropped : ¬ ∀ (P : Platform) (jar : Nat → List Session)
    (evs : List ServerMove) (σ : Server),
    Run (PoolStep P) (Server.start initAllDatabases jar) evs σ → ∀ (env : Env) (s : Session)
    (page : List BoxEvent) (fields form : SalonForm),
    (ServiceBox.after page).posted fields = some form →
    (handle P env σ.store.db s (.registerSalon form)).body =
      .redirect "show_salons".toList none →
    menu (handle P env σ.store.db s (.registerSalon form)).db (σ.store.db.salons.seq + 1) =
      (ServiceBox.after page).submit.tags.map fun tag =>
        (tag.name, some (JsText.number tag.price)) := by
  intro h
  have hstored := h plain _ _ _ firstSalon.run (calmly 0 "order") {}
    (typedServices "Haircut 0x10" "Shave 50") secondForm (typedForm "Haircut 0x10" "Shave 50")
    (by decide +kernel) (by decide +kernel)
  exact absurd hstored (by decide +kernel)

end Page

end Gloora
