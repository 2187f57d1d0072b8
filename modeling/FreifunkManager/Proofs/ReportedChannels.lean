import FreifunkManager.Model.MapOrder
import FreifunkManager.Proofs.MissingParts

/-! # The channels that a report shows

A radio on the air counts for a band if its frequency is that of a permitted channel of the band. The last of them
decides which channel the node reports; the others, and the radios of the other band, make no difference. The
channels that can be reported so are the ones offered to the clients.
-/

namespace FreifunkManager

/-- The radio is on this permitted channel of the band. -/
def Band.Uses (band : Band) (wifi : WirelessAirtime) (ch : UInt32) : Prop :=
  ∃ channel, (ch, channel) ∈ channelList ∧ channel.frequency = wifi.frequency ∧
    (channelEU = true → channel.allowedInEU = true) ∧ band.Contains channel.frequency

/-- The channel of the last of these radios that are on a permitted channel of the band. -/
def Band.LastUsed (band : Band) (wireless : List WirelessAirtime) (ch : UInt32) : Prop :=
  ∃ before wifi later, wireless = before ++ wifi :: later ∧ band.Uses wifi ch ∧
    ∀ other ∈ later, ∀ ch, ¬ band.Uses other ch

/-- The offered channels of the band, as they are collected from the map at the start. -/
def Band.wifiChannels (order : MapOrder) : Band → List UInt32
  | .band24 => (order.entries.filter fun entry => !(channelEU && !entry.2.allowedInEU) &&
      !(entry.2.frequency > freqThreashold)).map (·.1)
  | .band5 => (order.entries.filter fun entry => !(channelEU && !entry.2.allowedInEU) &&
      entry.2.frequency > freqThreashold).map (·.1)

theorem Band.uses_iff {band : Band} {wifi : WirelessAirtime} {ch : UInt32} :
    band.Uses wifi ch ↔ band.hears wifi.frequency = true ∧ heard wifi.frequency = ch := by
  have listed : ∀ entry ∈ channelList, entry.2.allowedInEU = true → heard entry.2.frequency = entry.1 ∧
      entry.1 ≠ 0 := by
    decide
  constructor
  · rintro ⟨channel, member, same, allowed, contained⟩
    obtain ⟨shown, nonzero⟩ := listed _ member (allowed rfl)
    rw [← same]
    exact ⟨by simpa [Band.hears, shown, nonzero] using contained, shown⟩
  · rintro ⟨audible, rfl⟩
    obtain ⟨nonzero, contained⟩ : heard wifi.frequency ≠ 0 ∧ band.Contains wifi.frequency := by
      simpa [Band.hears] using audible
    obtain ⟨channel, permitted, same⟩ := (heard_cases wifi.frequency).resolve_left nonzero
    obtain ⟨found, allowed⟩ := getChannel_eq_some permitted
    refine ⟨channel, ?_, same, fun _ => allowed, same ▸ contained⟩
    obtain ⟨before, after, split, _⟩ := List.lookup_eq_some_iff.mp found
    rw [split]
    simp

theorem Band.Uses.permits {band : Band} {wifi : WirelessAirtime} {ch : UInt32} (uses : band.Uses wifi ch) :
    ch ≠ 0 ∧ band.Permits ch := by
  obtain ⟨channel, member, -, allowed, contained⟩ := uses
  have listed : ∀ entry ∈ channelList, entry.2.allowedInEU = true → entry.1 ≠ 0 ∧
      getChannel entry.1 = some entry.2 := by
    decide
  obtain ⟨nonzero, permitted⟩ := listed _ member (allowed rfl)
  exact ⟨nonzero, channel, permitted, contained⟩

theorem Band.Uses.offered {band : Band} {wifi : WirelessAirtime} {ch : UInt32} (uses : band.Uses wifi ch)
    (order : MapOrder) : ch ∈ band.wifiChannels order := by
  obtain ⟨channel, member, -, allowed, contained⟩ := uses
  have listed := order.permutes.mem_iff.mpr member
  cases band with
  | band24 =>
    refine List.mem_map.mpr ⟨_, List.mem_filter.mpr ⟨listed, ?_⟩, rfl⟩
    simpa [allowed rfl, Band.Contains] using contained
  | band5 =>
    refine List.mem_map.mpr ⟨_, List.mem_filter.mpr ⟨listed, ?_⟩, rfl⟩
    simpa [allowed rfl, Band.Contains] using contained

/-- What is shown for a band is the channel of the last radio that uses it; without one nothing is shown. -/
theorem Band.shown_cases (band : Band) (wireless : List WirelessAirtime) (clients : Clients) :
    band.LastUsed wireless ((Yanic.Statistics.mk wireless clients).shown band) ∨
      (Yanic.Statistics.mk wireless clients).shown band = 0 ∧ ∀ wifi ∈ wireless, ∀ ch, ¬ band.Uses wifi ch := by
  induction wireless using List.reverseRecOn with
  | nil => exact .inr ⟨rfl, nofun⟩
  | append_singleton wireless wifi ih =>
    rw [← airtimeChannels_channel] at ih ⊢
    rw [List.foldl_append, List.foldl_cons, List.foldl_nil, airtimeChannel_channel]
    by_cases audible : band.hears wifi.frequency
    · rw [if_pos audible]
      exact .inl ⟨wireless, wifi, [], rfl, Band.uses_iff.mpr ⟨audible, rfl⟩, nofun⟩
    · rw [if_neg audible]
      have silent (ch : UInt32) : ¬ band.Uses wifi ch := fun uses => audible (Band.uses_iff.mp uses).1
      rcases ih with ⟨before, used, later, split, uses, rest⟩ | ⟨nothing, none⟩
      · refine .inl ⟨before, used, later ++ [wifi], by simp [split], uses, ?_⟩
        exact List.forall_mem_append.mpr ⟨rest, List.forall_mem_singleton.mpr silent⟩
      · exact .inr ⟨nothing, List.forall_mem_append.mpr ⟨none, List.forall_mem_singleton.mpr silent⟩⟩

/-- The configured power is no part of what the radios show. -/
theorem getWirelessSettingsBy_shown (orders : MapOrders) (nodeinfo : Option Yanic.Nodeinfo) (stats : Yanic.Statistics) :
    ∃ settings, getWirelessSettingsBy orders ⟨nodeinfo, some stats⟩ = some settings ∧
      ∀ band : Band, settings.channel band = stats.shown band := by
  rw [getWirelessSettingsBy_eq]
  cases nodeinfo with
  | none => exact ⟨_, rfl, airtimeChannels_channel stats.wireless stats.clients⟩
  | some info => exact ⟨_, rfl, getWirelessSettings_channel info stats⟩

/-- In any orders of the map, the channel that is reported for a band is that of the last radio on a permitted channel
of it, and zero without one. It is one of those that the clients are offered and that a push accepts. -/
theorem reported_channels (orders : MapOrders) (startup : MapOrder) (nodeinfo : Option Yanic.Nodeinfo)
    (stats : Yanic.Statistics) :
    ∃ settings, getWirelessSettingsBy orders ⟨nodeinfo, some stats⟩ = some settings ∧ ∀ band : Band,
      (settings.channel band = 0 ∨
        settings.channel band ∈ band.wifiChannels startup ∧ band.Permits (settings.channel band)) ∧
      (settings.channel band = 0 ↔ ∀ wifi ∈ stats.wireless, ∀ ch, ¬ band.Uses wifi ch) ∧
      (settings.channel band ≠ 0 → band.LastUsed stats.wireless (settings.channel band)) ∧
      -- a radio that is not of the band may be left out
      ∀ before wifi later, stats.wireless = before ++ wifi :: later → (∀ ch, ¬ band.Uses wifi ch) →
        ∀ (orders' : MapOrders) (nodeinfo' : Option Yanic.Nodeinfo) (clients : Clients), ∃ settings',
          getWirelessSettingsBy orders' ⟨nodeinfo', some ⟨before ++ later, clients⟩⟩ = some settings' ∧
            settings'.channel band = settings.channel band := by
  obtain ⟨settings, computed, channels⟩ := getWirelessSettingsBy_shown orders nodeinfo stats
  refine ⟨settings, computed, fun band => ?_⟩
  have either := Band.shown_cases band stats.wireless stats.clients
  rw [← channels] at either
  refine ⟨?_, ?_, ?_, ?_⟩
  · rcases either with ⟨_, _, _, _, uses, _⟩ | ⟨nothing, _⟩
    · exact .inr ⟨uses.offered startup, uses.permits.2⟩
    · exact .inl nothing
  · rcases either with ⟨before, wifi, later, split, uses, _⟩ | ⟨nothing, none⟩
    · refine iff_of_false uses.permits.1 fun silent => silent wifi ?_ _ uses
      rw [split]
      exact List.mem_append_right _ (.head _)
    · exact iff_of_true nothing none
  · intro nonzero
    exact either.resolve_right fun nothing => nonzero nothing.1
  · intro before wifi later split silent orders' nodeinfo' clients
    obtain ⟨settings', computed', channels'⟩ := getWirelessSettingsBy_shown orders' nodeinfo' ⟨before ++ later, clients⟩
    refine ⟨settings', computed', ?_⟩
    have inaudible : ¬ band.hears wifi.frequency := fun audible => silent _ (Band.uses_iff.mpr ⟨audible, rfl⟩)
    rw [channels', channels, Yanic.Statistics.shown, Yanic.Statistics.shown, split, List.map_append, List.map_append,
      List.map_cons, List.filter_append, List.filter_append, List.filter_cons_of_neg inaudible]

end FreifunkManager
