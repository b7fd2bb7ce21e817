import Mathlib.Data.List.Induction
import UringServer.Game.PlayerRegistry
import UringServer.Semantics.SetIndex

/-!
# `PresenceTracker`

The subscriptions are kept twice, by topic and by player, under one mutex. A call
changes both maps before it gives the mutex back, so calls of several threads act
in some order, one after the other.
-/

namespace UringServer.Game

open UringServer.Semantics UringServer.Web

/-- `PresenceTracker`, with the registry it refers to. -/
structure PresenceTracker where
  registry : PlayerRegistry
  topicSubscribers : SetIndex Text PlayerId := .empty
  playerTopics : SetIndex PlayerId Text := .empty

namespace PresenceTracker

variable (tracker : PresenceTracker) (player : PlayerId) (topic : Text)

/-- `PresenceTracker::OnPlayerConnected`. -/
def onPlayerConnected (reactor : ContextId) : PresenceTracker :=
  { tracker with registry := tracker.registry.register player reactor }

/-- `PresenceTracker::UpdateStatus`. -/
def updateStatus (status : Text) : PresenceTracker :=
  { tracker with registry := tracker.registry.updateStatus player status }

/-- `PresenceTracker::Subscribe`. -/
def subscribe : PresenceTracker :=
  { tracker with
    topicSubscribers := tracker.topicSubscribers.add topic player
    playerTopics := tracker.playerTopics.add player topic }

/-- `PresenceTracker::Unsubscribe`. -/
def unsubscribe : PresenceTracker :=
  { tracker with
    topicSubscribers := tracker.topicSubscribers.remove topic player
    playerTopics := tracker.playerTopics.remove player topic }

/-- `PresenceTracker::UnsubscribeAll`. -/
def unsubscribeAll : PresenceTracker :=
  match tracker.playerTopics player with
  | none => tracker
  | some topics =>
    { tracker with
      topicSubscribers := tracker.topicSubscribers.removeFrom topics player
      playerTopics := tracker.playerTopics.erase player }

/-- `PresenceTracker::OnPlayerDisconnected`. -/
def onPlayerDisconnected : PresenceTracker :=
  let tracker := tracker.unsubscribeAll player
  { tracker with registry := tracker.registry.unregister player }

/-- `PresenceTracker::GetSubscribers`. -/
def getSubscribers : List PlayerId := tracker.topicSubscribers.values topic

end PresenceTracker

/-- A call of a `PresenceTracker` that changes it. -/
inductive PresenceCall where
  | onPlayerConnected (player : PlayerId) (reactor : ContextId)
  | onPlayerDisconnected (player : PlayerId)
  | updateStatus (player : PlayerId) (status : Text)
  | subscribe (player : PlayerId) (topic : Text)
  | unsubscribe (player : PlayerId) (topic : Text)
  | unsubscribeAll (player : PlayerId)
deriving DecidableEq, Repr

/-- The calls that say whether a player subscribes to a topic. -/
def PresenceCall.concerns (player : PlayerId) (topic : Text) : PresenceCall → Bool
  | .onPlayerConnected _ _ | .updateStatus _ _ => false
  | .subscribe subscriber named | .unsubscribe subscriber named =>
    subscriber == player && named == topic
  | .unsubscribeAll subscriber | .onPlayerDisconnected subscriber => subscriber == player

/-- The last call that says whether a player subscribes to a topic. -/
def lastConcerning (calls : List PresenceCall) (player : PlayerId) (topic : Text) :
    Option PresenceCall :=
  (calls.filter (PresenceCall.concerns player topic)).getLast?

section LastConcerning

variable {calls : List PresenceCall} {call : PresenceCall} {player : PlayerId} {topic : Text}

theorem lastConcerning_concat_of_concerns (concerned : call.concerns player topic) :
    lastConcerning (calls ++ [call]) player topic = some call := by
  rw [lastConcerning, List.filter_append, List.filter_cons_of_pos concerned]
  exact List.getLast?_concat

theorem lastConcerning_concat_of_not_concerns (unconcerned : ¬ call.concerns player topic) :
    lastConcerning (calls ++ [call]) player topic = lastConcerning calls player topic := by
  rw [lastConcerning, List.filter_append, List.filter_cons_of_neg unconcerned, List.filter_nil,
    List.append_nil]
  rfl

end LastConcerning

namespace PresenceTracker

def perform (tracker : PresenceTracker) : PresenceCall → PresenceTracker
  | .onPlayerConnected player reactor => tracker.onPlayerConnected player reactor
  | .onPlayerDisconnected player => tracker.onPlayerDisconnected player
  | .updateStatus player status => tracker.updateStatus player status
  | .subscribe player topic => tracker.subscribe player topic
  | .unsubscribe player topic => tracker.unsubscribe player topic
  | .unsubscribeAll player => tracker.unsubscribeAll player

/-- A new tracker after some calls. -/
def run (registry : PlayerRegistry) (calls : List PresenceCall) : PresenceTracker :=
  calls.foldl perform { registry }

theorem run_concat (registry : PlayerRegistry) (calls : List PresenceCall) (call : PresenceCall) :
    run registry (calls ++ [call]) = (run registry calls).perform call :=
  List.foldl_concat ..

/-- Both maps are tidy and hold the same subscriptions. -/
structure Indexed (tracker : PresenceTracker) : Prop where
  topics : tracker.topicSubscribers.Tidy
  players : tracker.playerTopics.Tidy
  inverse : ∀ player topic, player ∈ tracker.topicSubscribers.values topic ↔
    topic ∈ tracker.playerTopics.values player

variable {tracker : PresenceTracker}

/-- A player without an entry has no topic to be taken from. -/
theorem unsubscribeAll_eq (tracker : PresenceTracker) (player : PlayerId) :
    tracker.unsubscribeAll player =
      { tracker with
        topicSubscribers :=
          tracker.topicSubscribers.removeFrom (tracker.playerTopics.values player) player
        playerTopics := tracker.playerTopics.erase player } := by
  unfold unsubscribeAll
  split
  case h_1 absent =>
    have kept : tracker.playerTopics.erase player = tracker.playerTopics := by
      rw [SetIndex.erase, ← absent, Function.update_eq_self]
    rw [kept, SetIndex.values, absent]
    rfl
  case h_2 topics held => rw [SetIndex.values, held, Option.getD_some]

theorem Indexed.subscribe (indexed : tracker.Indexed) (player : PlayerId) (topic : Text) :
    (tracker.subscribe player topic).Indexed where
  topics := indexed.topics.add topic player
  players := indexed.players.add player topic
  inverse other named := by
    have before := indexed.inverse other named
    simp only [PresenceTracker.subscribe, SetIndex.mem_values_add]
    tauto

theorem Indexed.unsubscribe (indexed : tracker.Indexed) (player : PlayerId) (topic : Text) :
    (tracker.unsubscribe player topic).Indexed where
  topics := indexed.topics.remove topic player
  players := indexed.players.remove player topic
  inverse other named := by
    have before := indexed.inverse other named
    simp only [PresenceTracker.unsubscribe, indexed.topics.mem_values_remove,
      indexed.players.mem_values_remove]
    tauto

/-- The topics of the player are all the topics that the player is in. -/
theorem Indexed.mem_unsubscribeAll (indexed : tracker.Indexed) {player other : PlayerId}
    {topic : Text} :
    other ∈ (tracker.unsubscribeAll player).topicSubscribers.values topic ↔
      other ∈ tracker.topicSubscribers.values topic ∧ other ≠ player := by
  rw [unsubscribeAll_eq, indexed.topics.mem_values_removeFrom]
  refine and_congr_right fun subscribed => not_congr ?_
  refine ⟨And.right, fun same => ⟨?_, same⟩⟩
  exact same ▸ (indexed.inverse other topic).mp subscribed

theorem Indexed.unsubscribeAll (indexed : tracker.Indexed) (player : PlayerId) :
    (tracker.unsubscribeAll player).Indexed where
  topics := by
    rw [unsubscribeAll_eq]
    exact indexed.topics.removeFrom _ player
  players := by
    rw [unsubscribeAll_eq]
    exact indexed.players.erase player
  inverse other named := by
    rw [indexed.mem_unsubscribeAll, indexed.inverse, unsubscribeAll_eq,
      SetIndex.mem_values_erase]

theorem Indexed.perform (indexed : tracker.Indexed) (call : PresenceCall) :
    (tracker.perform call).Indexed := by
  cases call with
  | onPlayerConnected player reactor | updateStatus player status =>
    exact ⟨indexed.topics, indexed.players, indexed.inverse⟩
  | onPlayerDisconnected player =>
    have left := indexed.unsubscribeAll player
    exact ⟨left.topics, left.players, left.inverse⟩
  | subscribe player topic => exact indexed.subscribe player topic
  | unsubscribe player topic => exact indexed.unsubscribe player topic
  | unsubscribeAll player => exact indexed.unsubscribeAll player

/-- A call that does not concern the player and the topic leaves the subscription,
and of those that do only `Subscribe` leaves one. -/
theorem Indexed.mem_getSubscribers_perform (indexed : tracker.Indexed) (call : PresenceCall)
    (player : PlayerId) (topic : Text) :
    player ∈ (tracker.perform call).getSubscribers topic ↔
      if call.concerns player topic then call = .subscribe player topic
      else player ∈ tracker.getSubscribers topic := by
  cases call with
  | onPlayerConnected other reactor => rfl
  | onPlayerDisconnected other | unsubscribeAll other =>
    refine indexed.mem_unsubscribeAll.trans ?_
    simp [PresenceCall.concerns, getSubscribers]
    tauto
  | updateStatus other status => rfl
  | subscribe other named =>
    refine SetIndex.mem_values_add.trans ?_
    simp [PresenceCall.concerns, getSubscribers]
    tauto
  | unsubscribe other named =>
    refine indexed.topics.mem_values_remove.trans ?_
    simp [PresenceCall.concerns, getSubscribers]
    tauto

theorem indexed_run (registry : PlayerRegistry) (calls : List PresenceCall) :
    (run registry calls).Indexed := by
  induction calls using List.reverseRecOn with
  | nil =>
    exact ⟨SetIndex.tidy_empty, SetIndex.tidy_empty,
      fun _ _ => iff_of_false List.not_mem_nil List.not_mem_nil⟩
  | append_singleton calls call ih =>
    rw [run_concat]
    exact ih.perform call

/-- The subscribers of a topic are those who asked for it last. -/
theorem mem_getSubscribers_run (registry : PlayerRegistry) (calls : List PresenceCall)
    (player : PlayerId) (topic : Text) :
    player ∈ (run registry calls).getSubscribers topic ↔
      lastConcerning calls player topic = some (.subscribe player topic) := by
  induction calls using List.reverseRecOn with
  | nil => exact iff_of_false List.not_mem_nil nofun
  | append_singleton calls call ih =>
    rw [run_concat, (indexed_run registry calls).mem_getSubscribers_perform]
    split
    case isTrue concerned => rw [lastConcerning_concat_of_concerns concerned, Option.some_inj]
    case isFalse unconcerned =>
      rw [lastConcerning_concat_of_not_concerns unconcerned]
      exact ih

end PresenceTracker

/-- The last call for a topic after a disconnect is the disconnect or one of the
later ones. -/
theorem lastConcerning_ne_subscribe {player : PlayerId} {topic : Text}
    (earlier : List PresenceCall) {later : List PresenceCall}
    (quiet : .subscribe player topic ∉ later) :
    lastConcerning (earlier ++ .onPlayerDisconnected player :: later) player topic ≠
      some (.subscribe player topic) := by
  have concerned : PresenceCall.concerns player topic (.onPlayerDisconnected player) = true :=
    beq_self_eq_true player
  intro last
  rw [lastConcerning, List.filter_append, List.filter_cons_of_pos concerned,
    List.getLast?_append_cons] at last
  have among := List.mem_of_getLast? last
  rw [List.mem_cons] at among
  rcases among with same | among
  · exact nomatch same
  · exact quiet (List.mem_of_mem_filter among)

/-- For every list of calls: both maps hold the same subscriptions, neither has a
key with an empty set, the subscribers of a topic are the players whose last call
concerning it was `Subscribe`, and a player who has disconnected is in no topic
before the next `Subscribe`. -/
theorem presence_subscriptions (registry : PlayerRegistry) (calls : List PresenceCall) :
    let tracker := PresenceTracker.run registry calls
    (∀ player topic, player ∈ tracker.topicSubscribers.values topic ↔
      topic ∈ tracker.playerTopics.values player) ∧
    (∀ topic, tracker.topicSubscribers topic ≠ some []) ∧
    (∀ player, tracker.playerTopics player ≠ some []) ∧
    (∀ topic, (tracker.getSubscribers topic).Nodup ∧
      ∀ player, player ∈ tracker.getSubscribers topic ↔
        lastConcerning calls player topic = some (.subscribe player topic)) ∧
    ∀ player earlier later, calls = earlier ++ .onPlayerDisconnected player :: later →
      (∀ topic, .subscribe player topic ∉ later) →
        ∀ topic, player ∉ tracker.topicSubscribers.values topic := by
  have indexed := PresenceTracker.indexed_run registry calls
  have subscribers := PresenceTracker.mem_getSubscribers_run registry calls
  refine ⟨indexed.inverse, indexed.topics.nonempty, indexed.players.nonempty,
    fun topic => ⟨indexed.topics.nodup topic, fun player => subscribers player topic⟩, ?_⟩
  intro player earlier later split quiet topic subscribed
  have last := (subscribers player topic).mp subscribed
  rw [split] at last
  exact lastConcerning_ne_subscribe earlier (quiet topic) last

/-- Two players of a lobby, of whom one disconnects. -/
theorem lobby_subscriptions :
    (PresenceTracker.run (fun _ => none)
      [.onPlayerConnected 1 0, .onPlayerConnected 2 0, .subscribe 1 (ascii "lobby"),
        .subscribe 2 (ascii "lobby"), .onPlayerDisconnected 1]).getSubscribers (ascii "lobby") =
        [2] ∧
      1 ∉ (PresenceTracker.run (fun _ => none)
        [.onPlayerConnected 1 0, .onPlayerConnected 2 0, .subscribe 1 (ascii "lobby"),
          .subscribe 2 (ascii "lobby"), .onPlayerDisconnected 1]).topicSubscribers.values
            (ascii "lobby") := by
  refine ⟨by decide, ?_⟩
  obtain ⟨-, -, -, -, disconnected⟩ := presence_subscriptions (fun _ => none)
    [.onPlayerConnected 1 0, .onPlayerConnected 2 0, .subscribe 1 (ascii "lobby"),
      .subscribe 2 (ascii "lobby"), .onPlayerDisconnected 1]
  exact disconnected 1
    [.onPlayerConnected 1 0, .onPlayerConnected 2 0, .subscribe 1 (ascii "lobby"),
      .subscribe 2 (ascii "lobby")] [] rfl (fun _ => List.not_mem_nil) (ascii "lobby")

end UringServer.Game
