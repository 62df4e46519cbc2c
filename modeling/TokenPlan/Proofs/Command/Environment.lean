import TokenPlan.Command.Environment
import TokenPlan.Proofs.Plan.PaymentAsset

/-!
What a command takes from its environment. The mode of the environment and a mode that is set behind
it come to the same, and a plan for the main network needs the addresses of the asset and the
router.
-/

set_option autoImplicit false
set_option relaxedAutoImplicit false

namespace TokenPlan.Command

/-- The variable is set, is not blank, and holds the address but for white space around it. -/
def Holds (value? : Option String) (address : Address) : Prop :=
  ∃ value, value? = some value ∧ Text.trim value.toList ≠ [] ∧
    Address.ofText (String.ofList (Text.trim value.toList)) = .ok address

/-- The same variables, with the main network as the mode. -/
def Variables.inProduction (vars : Variables) : Variables :=
  { vars with mode := some "production" }

namespace Environment

variable {vars : Variables} {e : Environment} {settings : Settings}

private theorem present_eq_some_iff {value? : Option String} {value : String} :
    present value? = some value ↔ value? = some value ∧ Text.trim value.toList ≠ [] := by
  simp [present, Option.filter_eq_some_iff]

theorem readOptional_eq_ok_some_iff {name : String} {value? : Option String} {address : Address} :
    readOptional name value? = .ok (some address) ↔ Holds value? address := by
  have holds : Holds value? address ↔
      ∃ value, present value? = some value ∧ readAddress name value = .ok address := by
    simp only [Holds, present_eq_some_iff, readAddress, mapError_eq_ok_iff, and_assoc]
  rw [holds, readOptional]
  cases present value? with
  | none => simp
  | some value =>
    change some <$> readAddress name value = _ ↔ _
    cases read : readAddress name value <;> simp [read]

theorem ofVariables_eq_ok_iff :
    ofVariables vars = .ok e ↔
      readOptional Variables.paymentAssetName vars.paymentAsset = .ok e.paymentAsset ∧
      readOptional Variables.routerName vars.router = .ok e.router ∧
      (∃ wallet, readOptional Variables.exchangeWalletName vars.exchangeWallet = .ok wallet ∧
        e.exchangeWallet = wallet.getD standardWallet) ∧
      e.mode = BuildMode.ofText? (present vars.mode) := by
  simp only [ofVariables, bind_eq_ok_iff]
  constructor
  · rintro ⟨asset, asset_read, router, router_read, wallet, wallet_read, made⟩
    cases made
    exact ⟨asset_read, router_read, ⟨wallet, wallet_read, rfl⟩, rfl⟩
  · rintro ⟨asset_read, router_read, ⟨wallet, wallet_read, wallet_eq⟩, mode⟩
    refine ⟨_, asset_read, _, router_read, wallet, wallet_read, ?_⟩
    rw [← wallet_eq, ← mode]
    rfl

theorem ofVariables_inProduction (vars : Variables) :
    ofVariables vars.inProduction = (fun e => e.withMode .production) <$> ofVariables vars := by
  have mode : BuildMode.ofText? (present (some "production")) = .production := by decide
  simp only [ofVariables, Variables.inProduction, mode]
  cases readOptional Variables.paymentAssetName vars.paymentAsset with
  | error => rfl
  | ok asset =>
    cases readOptional Variables.routerName vars.router with
    | error => rfl
    | ok router => cases readOptional Variables.exchangeWalletName vars.exchangeWallet <;> rfl

theorem settings_of_production (mode : e.mode = .production) (settled : e.settings = .ok settings) :
    ∃ asset router, e.paymentAsset = some asset ∧ e.router = some router ∧
      settings = Settings.bound asset router := by
  simp only [Environment.settings, bind_eq_ok_iff, require_eq_ok_iff, mode] at settled
  obtain ⟨paymentAsset, chosen, router, routed, made⟩ := settled
  obtain ⟨asset, found, rfl⟩ := Option.map_eq_some_iff.mp chosen
  rw [requireRouter, mode] at routed
  cases set_to : e.router with
  | none =>
    rw [set_to] at routed
    cases routed
  | some address =>
    rw [set_to] at routed
    cases routed
    cases made
    exact ⟨asset, router, found, rfl, rfl⟩

end Environment

end TokenPlan.Command
