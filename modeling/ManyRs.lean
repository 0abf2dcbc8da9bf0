import ManyRs.Cbor.Basic
import ManyRs.Cbor.Map
import ManyRs.Cbor.Any
import ManyRs.Identity
import ManyRs.Store.Merk
import ManyRs.Events.EventId
import ManyRs.Events.Kind
import ManyRs.Events.Codec
import ManyRs.Events.Views
import ManyRs.Migration.Basic
import ManyRs.Migration.Load
import ManyRs.Ledger.Commit
import ManyRs.Ledger.MintBurn
import ManyRs.Ledger.IdStore
import ManyRs.Ledger.Genesis
import ManyRs.Ledger.MintBurnModule
import ManyRs.KvStore.Storage
import ManyRs.KvStore.EventLog
import ManyRs.Abci.App
import ManyRs.Abci.Run
import ManyRs.Server.Status
import ManyRs.Server.Time
import ManyRs.Server.Dispatch
import ManyRs.Data.Gauge
