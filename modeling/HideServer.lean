import HideServer.Provisioner.Removal
import HideServer.Provisioner.Mounter
import HideServer.Provisioner.Leftovers
import HideServer.Provisioner.Quota
import HideServer.Access.Active
import HideServer.Access.Promises
import HideServer.Access.Quantities
import HideServer.Manage.Replacing
import HideServer.Manage.Permissions
import HideServer.Lease.Controller
import HideServer.Tokens.Invitations
import HideServer.Tokens.Kinds
import HideServer.Gateway.Broadcast
import HideServer.Cache.Updates
import HideServer.Gateway.Revocation
import HideServer.Gateway.Replacement
import HideServer.Gateway.Removal
import HideServer.Env.Flushing
import HideServer.Env.Registered
import HideServer.Env.Registry
import HideServer.Env.Resolver
import HideServer.Env.Resolution
import HideServer.Env.Connections
import HideServer.Env.Detection
import HideServer.Env.Viewing
import HideServer.Env.Displacement
import HideServer.Env.Bursts
import HideServer.Env.Routing
import HideServer.Env.Cursors
import HideServer.Env.Delivery
import HideServer.Env.Joining
import HideServer.Env.Affinity
import HideServer.Env.Binding
import HideServer.Cache.Clock
import HideServer.Cache.Gone
import HideServer.Env.Leaving
import HideServer.Env.Watching
import HideServer.Env.Unloaded
import HideServer.Env.Answers
import HideServer.Gateway.Guard
import HideServer.Auth.Guessing
import HideServer.Common.Debounce
import HideServer.Access.Deletion
import HideServer.Notification.Read
import HideServer.Gateway.Usernames
