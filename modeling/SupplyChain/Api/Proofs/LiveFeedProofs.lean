import SupplyChain.Api.Proofs.HubProgressProofs
import SupplyChain.Text.Proofs.EventStreamProofs
import SupplyChain.Text.Proofs.JsonProofs
import SupplyChain.Text.Decimal

/-!
# Proofs: the feed shows the log

What a dashboard has received is read as the events that were written to it, however the network has cut the
bytes. With what the hub writes, the feed is the latest stretch of the log.
-/

namespace SupplyChain

open EventStream StreamServer
open SseHub (passed)

variable {ν : Type} {format : Json.NumberFormat ν} {number : Int → ν}

/-! ## The JSON of an event -/

theorem distinctItems_map {α : Type} {f : α → Json ν} (hf : ∀ a, Json.Distinct (f a)) (items : List α) :
    Json.DistinctItems (items.map f) := by
  induction items with
  | nil => trivial
  | cons a items ih => exact ⟨hf a, ih⟩

theorem distinct_of_map {α : Type} {f : α → Json ν} (hf : ∀ a, Json.Distinct (f a)) (o : Option α) :
    ∀ value, o.map f = some value → Json.Distinct value := by
  intro value hvalue
  obtain ⟨a, -, rfl⟩ := Option.map_eq_some_iff.mp hvalue
  exact hf a

theorem OrderLine.json_distinct (line : OrderLine) : Json.Distinct (line.json number) := by
  unfold OrderLine.json Json.Distinct
  exact ⟨by simp, trivial, trivial, trivial, trivial⟩

theorem Reservation.json_distinct (r : Reservation) : Json.Distinct (r.json : Json ν) := by
  unfold Reservation.json Json.Distinct
  exact ⟨by simp, trivial, trivial, trivial, trivial⟩

theorem stringOrNull_distinct (s : Option String) : Json.Distinct (stringOrNull s : Json ν) := by
  cases s <;> trivial

theorem EventDetail.fields_distinct (d : EventDetail) :
    ∀ field ∈ d.fields number, ∀ value, field.2 = some value → Json.Distinct value := by
  have hstring : ∀ o : Option String, ∀ value : Json ν, o.map .string = some value → Json.Distinct value :=
    distinct_of_map fun _ => trivial
  intro field hfield
  simp only [EventDetail.fields, List.mem_cons, List.not_mem_nil, or_false] at hfield
  rcases hfield with rfl | rfl | rfl | rfl | rfl | rfl | rfl | rfl | rfl | rfl | rfl
  · exact distinct_of_map (f := fun rs : List Reservation => .array (rs.map Reservation.json))
      (fun rs => by rw [Json.Distinct]; exact distinctItems_map Reservation.json_distinct rs) _
  · exact hstring _
  · exact hstring _
  · exact hstring _
  · exact hstring _
  · exact hstring _
  · exact distinct_of_map (f := fun status => .string (OrderStatus.text status)) (fun _ => trivial) _
  · exact hstring _
  · exact distinct_of_map (f := fun lines : List OrderLine => .array (lines.map fun line => line.json number))
      (fun lines => by rw [Json.Distinct]; exact distinctItems_map OrderLine.json_distinct lines) _
  · exact distinct_of_map (f := fun cents => .number (number cents)) (fun _ => trivial) _
  · exact distinct_of_map stringOrNull_distinct _

/-- The fields that are there keep their names and their order. -/
theorem names_filterMap (fields : List (String × Option (Json ν))) :
    ((fields.filterMap fun field => field.2.map fun value => (field.1, value)).map Prod.fst).Sublist
      (fields.map Prod.fst) := by
  induction fields with
  | nil => exact List.Sublist.refl _
  | cons field fields ih =>
    obtain ⟨name, value⟩ := field
    cases value with
    | none => exact ih.cons _
    | some value => exact ih.cons_cons _

theorem distinctProperties_of_mem {properties : List (String × Json ν)}
    (h : ∀ p ∈ properties, Json.Distinct p.2) : Json.DistinctProperties properties := by
  induction properties with
  | nil => trivial
  | cons p properties ih =>
    obtain ⟨hp, hps⟩ := List.forall_mem_cons.mp h
    exact ⟨hp, ih hps⟩

theorem EventDetail.names (d : EventDetail) : (d.fields number).map Prod.fst =
    ["reservations", "paymentId", "shipmentId", "reason", "sku", "warehouseId", "previousStatus",
      "customerId", "lines", "amountCents", "businessId"] := rfl

/-- The JSON of an event has no name twice. -/
theorem DomainEvent.json_distinct (e : DomainEvent) : Json.Distinct (e.json number) := by
  have hnames := names_filterMap (e.payload.fields number)
  rw [EventDetail.names] at hnames
  have hpayload : Json.Distinct (.object (("orderId", .string e.orderId) :: e.payload.properties number)) := by
    refine ⟨?_, trivial, distinctProperties_of_mem fun p hp => ?_⟩
    · rw [List.map_cons, List.nodup_cons]
      refine ⟨fun hmem => ?_, hnames.nodup (by decide)⟩
      have hfixed := hnames.subset hmem
      simp at hfixed
    · obtain ⟨field, hfield, hsome⟩ := List.mem_filterMap.mp hp
      obtain ⟨value, hvalue, rfl⟩ := Option.map_eq_some_iff.mp hsome
      exact e.payload.fields_distinct field hfield value hvalue
  unfold DomainEvent.json Json.Distinct
  exact ⟨by simp, trivial, hpayload, trivial, trivial, trivial⟩

/-! ## The messages of a response -/

/-- The message that the dashboard is sent for an event. -/
def eventMessage (format : Json.NumberFormat ν) (number : Int → ν) (e : DomainEvent) : Message :=
  ⟨"message".toList, Json.stringify format (e.json number)⟩

theorem frames_printable (written : List SseMessage) :
    ∀ frame ∈ written.filterMap (SseMessage.frame format number), Json.Printable frame.content := by
  intro frame hframe
  obtain ⟨message, -, hsome⟩ := List.mem_filterMap.mp hframe
  cases message with
  | head => cases hsome
  | connected =>
    obtain rfl := Option.some.inj hsome
    exact Json.printable_of_all (by decide)
  | data event =>
    obtain rfl := Option.some.inj hsome
    exact Json.stringify_printable _

theorem messages_data (events : List DomainEvent) :
    ((events.map SseMessage.data).filterMap (SseMessage.frame format number)).filterMap Frame.message =
      events.map (eventMessage format number) := by
  induction events with
  | nil => rfl
  | cons e events ih =>
    rw [List.map_cons, List.map_cons, ← ih]
    rfl

/-! ## The feed -/

namespace LiveFeed

theorem onmessage_event (feedEvents : List (Json ν)) (e : DomainEvent) :
    onmessage format feedEvents (eventMessage format number e) =
      (e.json number :: feedEvents).take 200 := by
  rw [onmessage, eventMessage, if_pos rfl, Json.parse_stringify _ e.json_distinct]
  rfl

/-- The feed keeps the newest events, the last one first. -/
theorem foldl_onmessage (events : List DomainEvent) (feedEvents : List (Json ν)) (hcap : feedEvents.length ≤ 200) :
    (events.map (eventMessage format number)).foldl (onmessage format) feedEvents =
      ((events.map (DomainEvent.json number)).reverse ++ feedEvents).take 200 := by
  induction events generalizing feedEvents with
  | nil => exact (List.take_of_length_le hcap).symm
  | cons e events ih =>
    rw [List.map_cons, List.foldl_cons, onmessage_event, ih _ (List.length_take_le _ _), List.map_cons,
      List.reverse_cons, List.append_assoc, List.singleton_append]
    rw [List.take_append, List.take_append, List.take_take, Nat.min_eq_left (Nat.sub_le _ _)]

/-- The feed has read the bytes received so far, and shows what has come since it was last cleared. -/
def Reads (feed : LiveFeed ν) (format : Json.NumberFormat ν) (received : List UInt8) (cleared : Nat) : Prop :=
  feed.reader = (Reader.start.read received).1 ∧ cleared ≤ (Reader.start.read received).2.length ∧
    feed.feedEvents = ((Reader.start.read received).2.drop cleared).foldl (onmessage format) []

theorem Reads.step {feed : LiveFeed ν} {received : List UInt8} {cleared : Nat}
    (h : feed.Reads format received cleared) (a : FeedAction) :
    ∃ cleared', (feed.step format a).Reads format (received ++ a.bytes) cleared' ∧
      (a ≠ .clear → cleared' = cleared) := by
  obtain ⟨hreader, hle, hevents⟩ := h
  cases a with
  | chunk bytes =>
    refine ⟨cleared, ⟨?_, ?_, ?_⟩, fun _ => rfl⟩
    · rw [FeedAction.bytes, Reader.read_append, ← hreader]
      rfl
    · rw [FeedAction.bytes, Reader.read_append, List.length_append]
      exact Nat.le_add_right_of_le hle
    · rw [FeedAction.bytes, Reader.read_append, List.drop_append_of_le_length hle, List.foldl_append, ← hevents,
        ← hreader]
      rfl
  | clear =>
    refine ⟨(Reader.start.read received).2.length, ⟨?_, ?_, ?_⟩, fun hne => absurd rfl hne⟩
    · rw [FeedAction.bytes, List.append_nil]
      exact hreader
    · rw [FeedAction.bytes, List.append_nil]
    · rw [FeedAction.bytes, List.append_nil, List.drop_length]
      rfl

theorem Reads.run {feed : LiveFeed ν} {received : List UInt8} {cleared : Nat}
    (h : feed.Reads format received cleared) (actions : List FeedAction) :
    ∃ cleared', (feed.run format actions).Reads format (received ++ actions.flatMap FeedAction.bytes) cleared' ∧
      (.clear ∉ actions → cleared' = cleared) := by
  induction actions generalizing feed received cleared with
  | nil =>
    rw [List.flatMap_nil, List.append_nil]
    exact ⟨cleared, h, fun _ => rfl⟩
  | cons a actions ih =>
    obtain ⟨cleared₁, h₁, hkept₁⟩ := h.step a
    obtain ⟨cleared', h', hkept'⟩ := ih h₁
    rw [List.append_assoc] at h'
    refine ⟨cleared', h', fun hnever => ?_⟩
    rw [List.mem_cons, not_or] at hnever
    rw [hkept' hnever.2, hkept₁ (Ne.symm hnever.1)]

theorem reads_loaded : (loaded : LiveFeed ν).Reads format [] 0 := ⟨rfl, Nat.le_refl _, rfl⟩

end LiveFeed

/-! ## From the bus to the feed -/

theorem frames_stream (events : List DomainEvent) :
    (([SseMessage.head, .connected] ++ events.map SseMessage.data).filterMap
        (SseMessage.frame format number)).filterMap Frame.message =
      events.map (eventMessage format number) := by
  rw [List.filterMap_append, List.filterMap_append, messages_data]
  rfl

/-- However the bytes of a response that stays open are cut, the feed of its dashboard shows a stretch of the
log, newest first and of the last 200 events: from where the hub was when the response was added, or a later
event if the feed was cleared, to the last event that has come through in full. -/
theorem feed_shows_log (format : Json.NumberFormat ν) (number : Int → ν) {owner : OrderId → Option String}
    {res : Client} {before after : List StreamAction} {s₁ s : StreamServer}
    (hbefore : started.run owner before = some s₁)
    (hr : s₁.run owner (.addClient res :: after) = some s)
    (hnew : .addClient res ∉ before ++ after) (hopen : .close res ∉ after) {actions : List FeedAction}
    (hreceived : actions.flatMap FeedAction.bytes <+: streamBytes format number (s.written res)) :
    ∃ m n, passed s₁.bus ≤ m ∧ m ≤ n ∧ n ≤ passed s.bus ∧
      (LiveFeed.loaded.run format actions).feedEvents =
        (((s.log.take n).drop m).map (DomainEvent.json number)).reverse.take 200 ∧
      (.clear ∉ actions → m = passed s₁.bus) ∧
      (actions.flatMap FeedAction.bytes = streamBytes format number (s.written res) → n = passed s.bus) := by
  have hfollows := follows_of_run hbefore hr hnew hopen
  have hloaded : (LiveFeed.loaded : LiveFeed ν).Reads format [] 0 := LiveFeed.reads_loaded
  obtain ⟨cleared, ⟨-, hcleared, hshown⟩, hkept⟩ := hloaded.run actions
  rw [List.nil_append] at hcleared hshown
  generalize actions.flatMap FeedAction.bytes = received at hreceived hcleared hshown ⊢
  have hall : (Reader.start.read (streamBytes format number (s.written res))).2 =
      ((s.log.take (passed s.bus)).drop (passed s₁.bus)).map (eventMessage format number) := by
    rw [streamBytes, read_frames (frames_printable _), hfollows.written, frames_stream]
  have hprefix := Reader.read_prefix (r := .start) hreceived
  rw [hall] at hprefix
  -- the messages read so far are those of the first `k` events written
  have hread := List.prefix_iff_eq_take.mp hprefix
  have hk := hprefix.length_le
  have hpassed : passed s.bus ≤ s.log.length := hfollows.inv.passed_le
  have hle := hfollows.le
  rw [List.length_map, List.length_drop, List.length_take, Nat.min_eq_left hpassed] at hk
  generalize hcount : (Reader.start.read received).2.length = k at hread hcleared hk
  have hstretch : ((s.log.take (passed s.bus)).drop (passed s₁.bus)).take k =
      (s.log.take (passed s₁.bus + k)).drop (passed s₁.bus) := by
    rw [List.drop_take, List.drop_take, List.take_take, Nat.add_sub_cancel_left, Nat.min_eq_left hk]
  refine ⟨passed s₁.bus + cleared, passed s₁.bus + k, Nat.le_add_right _ _, by omega, by omega, ?_, ?_, ?_⟩
  · rw [hshown, hread, ← List.map_take, hstretch, ← List.map_drop, List.drop_drop,
      LiveFeed.foldl_onmessage _ _ (Nat.zero_le _), List.append_nil]
  · intro hnever
    rw [hkept hnever, Nat.add_zero]
  · rintro rfl
    rw [hall, List.length_map, List.length_drop, List.length_take, Nat.min_eq_left hpassed] at hcount
    omega

/-! ## A feed of decimal numbers -/

theorem decimal_repr (n : Int) : Decimal.value n.repr.toList = n := Decimal.number_repr n

theorem isNumberChar_repr (n : Int) : ∀ c ∈ n.repr.toList, Json.isNumberChar c = true := by
  have hdigit : ∀ m : Nat, ∀ c ∈ m.repr.toList, Json.isNumberChar c = true := by
    intro m c hc
    rw [Json.isNumberChar, Decimal.isDigit_of_mem_repr hc, Bool.true_or]
  cases n with
  | ofNat m => exact hdigit m
  | negSucc m =>
    have htext : (Int.negSucc m).repr.toList = '-' :: (m + 1).repr.toList := by
      show ("-" ++ (m + 1).repr).toList = _
      simp [String.toList_append]
    rw [htext]
    exact List.forall_mem_cons.mpr ⟨rfl, hdigit (m + 1)⟩

/-- Integers as decimal numerals. -/
def decimalFormat : Json.NumberFormat Int where
  write n := n.repr.toList
  read text := if (Decimal.value text).repr.toList = text then some (Decimal.value text) else none
  write_ne_nil n h := by
    have hzero := decimal_repr n
    rw [h] at hzero
    obtain rfl : (0 : Int) = n := hzero
    revert h
    decide
  isNumberChar_write := isNumberChar_repr
  read_write n := by rw [decimal_repr, if_pos rfl]

/-- The bytes come in two pieces, the first of which ends within an event. -/
theorem streamedOrders_shown : ∃ s,
    started.run twoOwners ([.openHub] ++ .addClient 0 :: streamedOrders) = some s ∧
      (LiveFeed.loaded.run decimalFormat
        [.chunk ((streamBytes decimalFormat id (s.written 0)).take 100),
          .chunk ((streamBytes decimalFormat id (s.written 0)).drop 100)]).feedEvents =
        (s.log.map (DomainEvent.json id)).reverse := by
  have hopened : (started.run twoOwners [.openHub]).map (fun s => passed s.bus) = some 0 := by
    decide +kernel
  have hrun : (started.run twoOwners ([.openHub] ++ .addClient 0 :: streamedOrders)).map
      (fun s => (s.log.length, passed s.bus)) = some (2, 2) := by
    decide +kernel
  obtain ⟨s, hr, hseen⟩ := Option.map_eq_some_iff.mp hrun
  obtain ⟨hlength, hpassed⟩ := Prod.mk.inj hseen
  obtain ⟨s₁, hbefore, hafter⟩ := run_append.mp hr
  rw [hbefore, Option.map_some, Option.some.injEq] at hopened
  refine ⟨s, hr, ?_⟩
  generalize hpieces : [FeedAction.chunk ((streamBytes decimalFormat id (s.written 0)).take 100),
    .chunk ((streamBytes decimalFormat id (s.written 0)).drop 100)] = pieces
  have hall : pieces.flatMap FeedAction.bytes = streamBytes decimalFormat id (s.written 0) := by
    rw [← hpieces]
    simp [FeedAction.bytes]
  have hreceived : pieces.flatMap FeedAction.bytes <+: streamBytes decimalFormat id (s.written 0) := by
    rw [hall]
  obtain ⟨m, n, -, -, -, hshown, hfirst, hlast⟩ := feed_shows_log decimalFormat id hbefore hafter
    (by simp [streamedOrders]) (by simp [streamedOrders]) hreceived
  have hm : m = 0 := by
    rw [hfirst (by simp [← hpieces]), hopened]
  have hn : n = 2 := (hlast hall).trans hpassed
  rw [hshown, hm, hn, List.drop_zero, List.take_of_length_le (Nat.le_of_eq hlength), List.take_of_length_le]
  rw [List.length_reverse, List.length_map, hlength]
  decide

end SupplyChain
