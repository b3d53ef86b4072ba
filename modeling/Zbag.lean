import Zbag.Sync.Coverage
import Zbag.Sync.Rounds
import Zbag.Sync.Download
import Zbag.Sync.Enhance
import Zbag.Sync.Exclusive
import Zbag.Sync.Phase
import Zbag.Wallet.Transparent
import Zbag.Swap.Deposit
import Zbag.Swap.Watch
import Zbag.Job.Stored
import Zbag.Account.Creation
import Zbag.Account.Address
import Zbag.Db.Rollback
import Zbag.App.Commands
import Zbag.Wallet.Logout
import Zbag.Crypto.Queued
import Zbag.Job.Registry
import Zbag.Job.Shielding
import Zbag.Wallet.Signing
import Zbag.Swap.Confirm
import Zbag.Swap.Guards
import Zbag.Tx.Status
import Zbag.Db.Failover
import Zbag.Tx.Race
import Zbag.Tx.Paths
import Zbag.Wallet.Unlock
import Zbag.Wallet.Birthday
import Zbag.Tor.Events
import Zbag.Tor.Switch
import Zbag.App.Balances
import Zbag.App.Amounts
import Zbag.App.Fiat
import Zbag.App.Logs
import Zbag.Keystone.Sound
